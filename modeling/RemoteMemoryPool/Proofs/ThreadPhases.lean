import RemoteMemoryPool.Model.ClientThreads

/-!
# Phases of the client's threads

What a thread has locked and what it has sent but not received is a state of an automaton
that moves on `lock`, `unlock`, `send` and `recv` only. This file shows once, for any such
automaton, which functions of the client come back to the state they are called in.
-/

namespace RemoteMemoryPool.Proofs

open Interaction Transition

/-- Neither an operation on the mutex nor one on the socket. -/
def Plain : ClientOp → Prop
  | .lock => False
  | .unlock _ => False
  | .send _ => False
  | .recv => False
  | _ => True

section Automaton

variable {Q α : Type} {δ : Q → (op : ClientOp) → op.Res → Q → Prop} {q : Q}

/-- The automaton moves on the mutex and the socket only. -/
def Neutral (δ : Q → (op : ClientOp) → op.Res → Q → Prop) : Prop :=
  ∀ q op r q', Plain op → (δ q op r q' ↔ q' = q)

lemma follows_plain (hδ : Neutral δ) (op : ClientOp) (hop : Plain op) (post : op.Res → Q → Prop) :
    op.call.Follows δ q post ↔ ∀ r, post r q :=
  Program.follows_perform_of_stay (fun r q' => hδ q op r q' hop) post

@[simp] lemma follows_get (hδ : Neutral δ) (post : Globals → Q → Prop) :
    Client.get.Follows δ q post ↔ ∀ r, post r q := follows_plain hδ .get trivial post

@[simp] lemma follows_modify (hδ : Neutral δ) (f : Globals → Globals) (post : Unit → Q → Prop) :
    (Client.modify f).Follows δ q post ↔ ∀ r, post r q := follows_plain hδ (.modify f) trivial post

@[simp] lemma follows_poll (hδ : Neutral δ) (uffd : Int) (post : Int → Q → Prop) :
    (Client.poll uffd).Follows δ q post ↔ ∀ r, post r q := follows_plain hδ (.poll uffd) trivial post

@[simp] lemma follows_readMsg (hδ : Neutral δ) (uffd : Int) (post : Int → Q → Prop) :
    (Client.readMsg uffd).Follows δ q post ↔ ∀ r, post r q := follows_plain hδ (.readMsg uffd) trivial post

@[simp] lemma follows_pageIsNull (hδ : Neutral δ) (post : Bool → Q → Prop) :
    Client.pageIsNull.Follows δ q post ↔ ∀ r, post r q := follows_plain hδ .pageIsNull trivial post

@[simp] lemma follows_mmapPage (hδ : Neutral δ) (post : Unit → Q → Prop) :
    Client.mmapPage.Follows δ q post ↔ ∀ r, post r q := follows_plain hδ .mmapPage trivial post

@[simp] lemma follows_packetObject (hδ : Neutral δ) (post : Packet → Q → Prop) :
    Client.packetObject.Follows δ q post ↔ ∀ r, post r q := follows_plain hδ .packetObject trivial post

@[simp] lemma follows_loadPage (hδ : Neutral δ) (src : Buf) (post : Page → Q → Prop) :
    (Client.loadPage src).Follows δ q post ↔ ∀ r, post r q := follows_plain hδ (.loadPage src) trivial post

@[simp] lemma follows_storePage (hδ : Neutral δ) (dst : Buf) (data : Page)
    (post : Unit → Q → Prop) :
    (Client.storePage dst data).Follows δ q post ↔ ∀ r, post r q := follows_plain hδ (.storePage dst data) trivial post

@[simp] lemma follows_enterResolver (hδ : Neutral δ) (r : ResolverCall) (post : Unit → Q → Prop) :
    (Client.enterResolver r).Follows δ q post ↔ ∀ r, post r q := follows_plain hδ (.enterResolver r) trivial post

@[simp] lemma follows_mmap (hδ : Neutral δ) (len : Nat) (post : Option Nat → Q → Prop) :
    (Client.mmap len).Follows δ q post ↔ ∀ r, post r q := follows_plain hδ (.mmap len) trivial post

@[simp] lemma follows_userfaultfd (hδ : Neutral δ) (post : Int → Q → Prop) :
    Client.userfaultfd.Follows δ q post ↔ ∀ r, post r q := follows_plain hδ .userfaultfd trivial post

@[simp] lemma follows_uffdioApi (hδ : Neutral δ) (uffd : Int) (post : Int → Q → Prop) :
    (Client.uffdioApi uffd).Follows δ q post ↔ ∀ r, post r q := follows_plain hδ (.uffdioApi uffd) trivial post

@[simp] lemma follows_uffdioRegister (hδ : Neutral δ) (uffd : Int) (start len : Nat)
    (post : Int → Q → Prop) :
    (Client.uffdioRegister uffd start len).Follows δ q post ↔ ∀ r, post r q := follows_plain hδ (.uffdioRegister uffd start len) trivial post

@[simp] lemma follows_uffdioCopy (hδ : Neutral δ) (uffd : Int) (dst : Nat) (src : Buf)
    (post : Int → Q → Prop) :
    (Client.uffdioCopy uffd dst src).Follows δ q post ↔ ∀ r, post r q := follows_plain hδ (.uffdioCopy uffd dst src) trivial post

@[simp] lemma follows_madvise (hδ : Neutral δ) (addr len : Nat) (post : Unit → Q → Prop) :
    (Client.madvise addr len).Follows δ q post ↔ ∀ r, post r q := follows_plain hδ (.madvise addr len) trivial post

@[simp] lemma follows_pthreadCreate (hδ : Neutral δ) (uffd : Int) (post : Int × Nat → Q → Prop) :
    (Client.pthreadCreate uffd).Follows δ q post ↔ ∀ r, post r q := follows_plain hδ (.pthreadCreate uffd) trivial post

@[simp] lemma follows_socket (hδ : Neutral δ) (post : Int → Q → Prop) :
    Client.socket.Follows δ q post ↔ ∀ r, post r q := follows_plain hδ .socket trivial post

@[simp] lemma follows_connect (hδ : Neutral δ) (post : Int → Q → Prop) :
    Client.connect.Follows δ q post ↔ ∀ r, post r q := follows_plain hδ .connect trivial post

@[simp] lemma follows_pthreadSelf (hδ : Neutral δ) (post : Nat → Q → Prop) :
    Client.pthreadSelf.Follows δ q post ↔ ∀ r, post r q := follows_plain hδ .pthreadSelf trivial post

@[simp] lemma follows_dlsym (hδ : Neutral δ) (post : Bool → Q → Prop) :
    Client.dlsym.Follows δ q post ↔ ∀ r, post r q := follows_plain hδ .dlsym trivial post

@[simp] lemma follows_stdlibMalloc (hδ : Neutral δ) (size : Nat) (post : Nat → Q → Prop) :
    (Client.stdlibMalloc size).Follows δ q post ↔ ∀ r, post r q := follows_plain hδ (.stdlibMalloc size) trivial post

@[simp] lemma follows_terminate (hδ : Neutral δ) (post : α → Q → Prop) :
    (Client.terminate : ClientM α).Follows δ q post := by
  rw [Client.terminate, Program.follows_bind]
  exact (follows_plain hδ .terminate trivial _).mpr (fun r => r.elim)

@[simp] lemma follows_mapAt {K V : Type} (hδ : Neutral δ) (m : Globals → UnorderedMap K V) (k : K)
    {post : V → Q → Prop} (hpost : ∀ v, post v q) : (Client.mapAt m k).Follows δ q post := by
  simp only [Client.mapAt, Program.follows_bind, follows_get hδ]
  intro g
  split
  · exact hpost _
  · exact follows_terminate hδ post

/-! ### Functions that keep the phase -/

lemma keeps_registerRegion (hδ : Neutral δ) (addr n : Nat) :
    (Uffdman.registerRegion addr n).Keeps δ q := by
  simp [Program.Keeps, Uffdman.registerRegion, hδ]

lemma keeps_uffdmanInit (hδ : Neutral δ) : Uffdman.init.Keeps δ q := by
  simp [Program.Keeps, Uffdman.init, hδ]

lemma keeps_rmpInit (hδ : Neutral δ) : Client.rmpInit.Keeps δ q := by
  have hinit := keeps_uffdmanInit (q := q) hδ
  simp [Program.Keeps, Client.rmpInit, hδ, hinit.follows]

lemma keeps_createPage (hδ : Neutral δ) : Uffdman.createPage.Keeps δ q := by
  simp [Program.Keeps, Uffdman.createPage, hδ]

section Exchange

/-- Sending a request and receiving a reply leads back to the phase. -/
def Exchanges (δ : Q → (op : ClientOp) → op.Res → Q → Prop) (q : Q) : Prop :=
  ∀ p, ∃ q', δ q (.send p) () q' ∧ ∀ r, δ q' .recv r q

lemma follows_exchange (hex : Exchanges δ q) (p : Packet) {post : Packet → Q → Prop}
    (hpost : ∀ r, post r q) :
    (Client.send p).Follows δ q (fun _ q' => Client.recv.Follows δ q' post) := by
  obtain ⟨q', hsend, hrecv⟩ := hex p
  exact fun _ => ⟨q', hsend, fun r => ⟨q, hrecv r, hpost r⟩⟩

lemma keeps_rmpWritePage (hδ : Neutral δ) (hex : Exchanges δ q) (hd : Handle) (offset : Nat)
    (page : Buf) : (Client.rmpWritePage hd offset page).Keeps δ q := by
  simp [Program.Keeps, Client.rmpWritePage, hδ, follows_exchange hex]

lemma keeps_rmpReadPage (hδ : Neutral δ) (hex : Exchanges δ q) (hd : Handle) (offset : Nat)
    (page : Buf) : (Client.rmpReadPage hd offset page).Keeps δ q := by
  simp [Program.Keeps, Client.rmpReadPage, hδ, follows_exchange hex]

lemma keeps_rmpAlloc (hδ : Neutral δ) (hex : Exchanges δ q) (npages : UInt32) :
    (Client.rmpAlloc npages).Keeps δ q := by
  have hreg := fun addr => keeps_registerRegion (q := q) hδ addr npages.toNat
  simp only [Program.Keeps, Client.rmpAlloc, Program.follows_bind, follows_mmap hδ]
  intro r
  cases r with
  | none => rfl
  | some addr => simp [hδ, follows_exchange hex, (hreg addr).follows]

variable {pageResolver : (startAddr faultingAddr isWrite : Nat) → Buf → ClientM Unit}

lemma keeps_invalidatePrevResolvedPage (hδ : Neutral δ)
    (hres : ∀ a b c d, (pageResolver a b c d).Keeps δ q) (uffd : Int) :
    (Uffdman.invalidatePrevResolvedPage pageResolver uffd).Keeps δ q := by
  simp only [Program.Keeps, Uffdman.invalidatePrevResolvedPage, Program.follows_bind,
    follows_get hδ, Program.follows_ite]
  intro g
  refine ⟨fun _ => ?_, fun _ => rfl⟩
  simp only [Uffdman.invalidate, Program.follows_bind]
  apply follows_mapAt hδ
  intro prevResolvedAddr
  apply follows_mapAt hδ
  intro prevResolvedOp
  apply follows_mapAt hδ
  intro regionStartAddr
  have hcall := hres regionStartAddr prevResolvedAddr prevResolvedOp (.mem prevResolvedAddr)
  simp [Uffdman.resolveWrite, hδ, hcall.follows]

lemma keeps_resolveFault (hδ : Neutral δ) (hres : ∀ a b c d, (pageResolver a b c d).Keeps δ q)
    (uffd : Int) (faultingAddr faultingOp : Nat) :
    (Uffdman.resolveFault pageResolver uffd faultingAddr faultingOp).Keeps δ q := by
  have hread : (Uffdman.resolveRead pageResolver uffd faultingAddr faultingOp).Keeps δ q := by
    simp only [Program.Keeps, Uffdman.resolveRead, Program.follows_ite, Program.follows_bind]
    refine ⟨fun _ => ?_, fun _ => rfl⟩
    apply follows_mapAt hδ
    intro regionStartAddr
    exact hres regionStartAddr faultingAddr faultingOp .staticPage
  simp only [Program.Keeps, Uffdman.resolveFault, Program.follows_bind]
  apply (keeps_invalidatePrevResolvedPage hδ hres uffd).follows
  intro _
  apply hread.follows
  intro _
  simp [Uffdman.recordResolved, hδ]

section Critical

variable {held : Q}

/-- A pass of a fault handler's loop comes back to its phase if the locking and the unlocking
around its critical section do. -/
lemma keeps_faultHandlerIteration (hδ : Neutral δ) (hlock : δ q .lock () held)
    (hunlock : δ held (.unlock .faultHandlerThread) () q)
    (hres : ∀ a b c d, (pageResolver a b c d).Keeps δ held) (uffd : Int) :
    (Uffdman.faultHandlerIteration pageResolver uffd).Keeps δ q := by
  have hpagefault : (Uffdman.handlePagefault pageResolver uffd).Keeps δ q := by
    simp only [Program.Keeps, Uffdman.handlePagefault, Program.follows_bind, follows_get hδ]
    intro g
    refine fun _ => ⟨held, hlock, ?_⟩
    apply (keeps_resolveFault hδ hres uffd _ _).follows
    intro continues
    exact fun _ => ⟨q, hunlock, rfl⟩
  simp [Program.Keeps, Uffdman.faultHandlerIteration, hδ, hpagefault.follows]

lemma keeps_faultHandlerThread (hδ : Neutral δ) (hlock : δ q .lock () held)
    (hunlock : δ held (.unlock .faultHandlerThread) () q)
    (hres : ∀ a b c d, (pageResolver a b c d).Keeps δ held) (uffd : Int) (n : Nat) :
    (Uffdman.faultHandlerThread pageResolver uffd n).Keeps δ q := by
  have hiter := keeps_faultHandlerIteration hδ hlock hunlock hres uffd
  have hloop : (Uffdman.faultHandlerLoop pageResolver uffd n).Keeps δ q := by
    induction n with
    | zero => rfl
    | succ n ih =>
      simp only [Program.Keeps, Uffdman.faultHandlerLoop, Program.follows_bind]
      apply hiter.follows
      intro continues
      rw [Program.follows_ite]
      exact ⟨fun _ => ih, fun _ => rfl⟩
  simp only [Program.Keeps, Uffdman.faultHandlerThread, Program.follows_bind]
  exact (keeps_createPage hδ).follows (fun _ => hloop)

end Critical

end Exchange

/-- A step of a process whose threads keep to the automaton. -/
lemma act_follows {ι : Type} [DecidableEq ι] {tid : ι → Nat} {c c' : Process ι} {i : ι}
    {op : ClientOp} {r : op.Res} {q : ι → Q} {post : Unit → Q → Prop}
    (hs : Process.Step tid c (.act ⟨i, op, r⟩) c')
    (hc : ∀ j, (c.threads j).Follows δ (q j) post) :
    ∃ q', δ (q i) op r q' ∧ op.Effect (tid i) c.state r c'.state ∧
      ∀ j, (c'.threads j).Follows δ (if i = j then q' else q j) post := by
  have hstep : Pool.Step (fun i op => op.Effect (tid i)) c ⟨i, op, r⟩ c' := hs
  obtain ⟨q', hq, hfollows⟩ := hstep.follows (δ := fun _ => δ) hc
  obtain ⟨next, -, heffect, -⟩ := hstep
  refine ⟨q', hq, heffect, fun j => ?_⟩
  by_cases hij : i = j
  · simpa [hij] using hfollows j
  · simpa [hij, Ne.symm hij] using hfollows j

end Automaton

section Jobs

variable {Q : Type} {δ : Q → (op : ClientOp) → op.Res → Q → Prop} {q held : Q}

/-- The functions that make requests come back to the phase. -/
structure Requests (δ : Q → (op : ClientOp) → op.Res → Q → Prop) (q : Q) : Prop where
  alloc : ∀ npages, (Client.rmpAlloc npages).Keeps δ q
  read : ∀ hd offset page, (Client.rmpReadPage hd offset page).Keeps δ q
  write : ∀ hd offset page, (Client.rmpWritePage hd offset page).Keeps δ q

lemma requests_of_exchanges (hδ : Neutral δ) (hex : Exchanges δ q) : Requests δ q where
  alloc := keeps_rmpAlloc hδ hex
  read := keeps_rmpReadPage hδ hex
  write := keeps_rmpWritePage hδ hex

lemma Requests.resolver (h : Requests δ q) (hδ : Neutral δ) (startAddr faultingAddr isWrite : Nat)
    (page : Buf) : (Client.rmpPagefaultResovler startAddr faultingAddr isWrite page).Keeps δ q := by
  have hread := h.read
  have hwrite := h.write
  simp only [Program.Keeps] at hread hwrite
  simp [Program.Keeps, Client.rmpPagefaultResovler, hδ, hread, hwrite]

/-- The operations on the mutex lead from `q` to `held` and back, the second release of `malloc`
leads from `q` to `q`, and requests may be made in both. -/
structure Brackets (δ : Q → (op : ClientOp) → op.Res → Q → Prop) (q held : Q) : Prop where
  neutral : Neutral δ
  lock : δ q .lock () held
  unlock : ∀ site, site ≠ .mallocGuard → δ held (.unlock site) () q
  scopeExit : δ q (.unlock .mallocGuard) () q
  outside : Requests δ q
  inside : Requests δ held

lemma Brackets.remoteMalloc (h : Brackets δ q held) (size : Nat) :
    (Preload.remoteMalloc size).Keeps δ q := by
  have halloc := h.inside.alloc (UInt32.ofNat (Preload.mallocPages size))
  simp only [Program.Keeps, Preload.remoteMalloc, Program.follows_bind, follows_modify h.neutral]
  refine fun _ => ⟨held, h.lock, fun _ => ?_⟩
  apply halloc.follows
  intro result
  exact fun _ => ⟨q, h.unlock _ (by decide), fun _ _ => ⟨q, h.scopeExit, rfl⟩⟩

lemma Brackets.rmpConnInit (h : Brackets δ q held) : Preload.rmpConnInit.Keeps δ q := by
  simp only [Program.Keeps, Preload.rmpConnInit, Program.follows_bind, follows_modify h.neutral,
    follows_pthreadSelf h.neutral]
  refine fun _ => ⟨held, h.lock, fun _ self _ => ?_⟩
  apply (keeps_rmpInit h.neutral).follows
  intro fd _ _
  exact fun _ => ⟨q, h.unlock _ (by decide), rfl⟩

lemma Brackets.localMalloc (h : Brackets δ q held) (size : Nat) :
    (Preload.localMalloc size).Keeps δ q := by
  simp [Program.Keeps, Preload.localMalloc, Preload.preloadlibInit, h.neutral]

lemma Brackets.checkConn (h : Brackets δ q held) : Preload.checkConn.Keeps δ q := by
  have hconn : Preload.connectOnce.Keeps δ q := by
    simp [Program.Keeps, Preload.connectOnce, h.neutral, h.rmpConnInit.follows]
  simp only [Program.Keeps, Preload.checkConn, Program.follows_bind]
  have hhook : Preload.hookOnce.Keeps δ q := by
    simp [Program.Keeps, Preload.hookOnce, Preload.preloadlibInit, h.neutral]
  apply hhook.follows
  intro _
  apply hconn.follows
  intro _
  simp [h.neutral]

lemma Brackets.malloc (h : Brackets δ q held) (size : Nat) : (Preload.malloc size).Keeps δ q := by
  simp only [Program.Keeps, Preload.malloc, Program.follows_bind, Program.follows_ite,
    follows_get h.neutral]
  intro g
  refine ⟨fun _ => h.localMalloc size, fun _ => ?_⟩
  apply h.checkConn.follows
  intro connected
  refine ⟨fun _ => ?_, fun _ => rfl⟩
  rw [follows_pthreadSelf h.neutral]
  intro self g
  exact ⟨fun _ => h.localMalloc size, fun _ => h.remoteMalloc size⟩

lemma Brackets.runCalls (h : Brackets δ q held) (cs : List PublicCall) : (runCalls cs).Keeps δ q := by
  induction cs with
  | nil => rfl
  | cons c cs ih =>
    have hcall : c.run.Keeps δ q := by
      cases c with
      | alloc npages =>
        simp only [Program.Keeps, PublicCall.run, Program.follows_bind]
        exact (h.outside.alloc npages).follows (fun _ => rfl)
      | read hd offset page => exact h.outside.read hd offset page
      | write hd offset page => exact h.outside.write hd offset page
    simp only [Program.Keeps, RemoteMemoryPool.runCalls, Program.follows_bind]
    exact hcall.follows (fun _ => ih)

lemma Brackets.heapCalls (h : Brackets δ q held) (cs : List HeapCall) : (runHeapCalls cs).Keeps δ q := by
  induction cs with
  | nil => rfl
  | cons c cs ih =>
    have hcall : c.run.Keeps δ q := by
      cases c with
      | malloc size =>
        simp only [Program.Keeps, HeapCall.run, Program.follows_bind]
        exact (h.malloc size).follows (fun _ => rfl)
      | free ptr => rfl
    simp only [Program.Keeps, runHeapCalls, Program.follows_bind]
    exact hcall.follows (fun _ => ih)

lemma Brackets.faultHandlerIteration (h : Brackets δ q held) (uffd : Int) :
    (Uffdman.faultHandlerIteration Client.rmpPagefaultResovler uffd).Keeps δ q :=
  keeps_faultHandlerIteration h.neutral h.lock (h.unlock _ (by decide))
    (h.inside.resolver h.neutral) uffd

lemma Brackets.faultHandlerThread (h : Brackets δ q held) (uffd : Int) (n : Nat) :
    (Uffdman.faultHandlerThread Client.rmpPagefaultResovler uffd n).Keeps δ q :=
  keeps_faultHandlerThread h.neutral h.lock (h.unlock _ (by decide))
    (h.inside.resolver h.neutral) uffd n

/-- Every thread comes back to where it was. -/
lemma Brackets.job (h : Brackets δ q held) (job : Job) : job.run.Keeps δ q := by
  cases job with
  | heap calls => exact h.heapCalls calls
  | work work =>
    cases work with
    | calls cs => exact h.runCalls cs
    | faultHandler uffd n => exact h.faultHandlerThread uffd n

end Jobs

/-! ### The scheduler makes steps of the process -/

lemma effect_of_succeed {t : Nat} {op : ClientOp} {s : Shared} {x : op.Res × Shared}
    (h : op.succeed t s = some x) : op.Effect t s x.1 x.2 := by
  cases op with
  | terminate => cases h
  | lock =>
    cases hl : s.locked with
    | true => simp [ClientOp.succeed, hl] at h
    | false =>
      obtain rfl : ((), { s with locked := true }) = x := by simpa [ClientOp.succeed, hl] using h
      exact ⟨hl, rfl⟩
  | recv =>
    cases hr : s.replies with
    | nil => simp [ClientOp.succeed, hr] at h
    | cons reply rest =>
      obtain rfl : (reply.packet, { s with replies := rest }) = x := by
        simpa [ClientOp.succeed, hr] using h
      exact ⟨reply, rest, hr, rfl, rfl⟩
  | readMsg uffd =>
    obtain rfl := Option.some.inj h
    exact ⟨_, rfl⟩
  | get =>
    obtain rfl := Option.some.inj h
    exact ⟨rfl, rfl⟩
  | pthreadSelf =>
    obtain rfl := Option.some.inj h
    exact ⟨rfl, rfl⟩
  | _ =>
    obtain rfl := Option.some.inj h
    rfl

lemma serve_of_serve {s s' : Shared} (h : s.serve = some s') : s.Serve refusingOs s' := by
  cases hr : s.requests with
  | nil => simp [Shared.serve, hr] at h
  | cons request rest =>
    simp only [Shared.serve, hr, Option.some.injEq] at h
    refine ⟨request, rest, hr, ?_, h.symm⟩
    intro _ a ha
    cases ha

section Scheduler

variable {ι : Type} [DecidableEq ι] {tid : ι → Nat}

lemma step_of_advance {c : Process ι} {i : Option ι} {x : ProcessEvent ι × Process ι}
    (h : c.advance tid i = some x) : Process.Step tid c x.1 x.2 := by
  cases i with
  | none =>
    obtain ⟨s, hs, rfl⟩ := Option.map_eq_some_iff.mp h
    exact ⟨rfl, serve_of_serve hs⟩
  | some i =>
    cases hthread : c.threads i with
    | pure a => simp [Process.advance, hthread] at h
    | call op next =>
      simp only [Process.advance, hthread] at h
      obtain ⟨y, hy, rfl⟩ := Option.map_eq_some_iff.mp h
      exact ⟨next, hthread, effect_of_succeed hy, rfl⟩

/-- An execution by the scheduler is a run of the process. -/
lemma run_of_execute {order : List (Option ι)} {c : Process ι} {x : History ι × Process ι}
    (h : c.execute tid order = some x) : Run (Process.Step tid) c x.1 x.2 := by
  induction order generalizing c x with
  | nil =>
    obtain rfl := Option.some.inj h
    exact Run.nil
  | cons i order ih =>
    obtain ⟨y, hy, hrest⟩ := Option.bind_eq_some_iff.mp h
    obtain ⟨z, hz, rfl⟩ := Option.map_eq_some_iff.mp hrest
    exact Run.cons (step_of_advance hy) (ih hz)

end Scheduler

end RemoteMemoryPool.Proofs
