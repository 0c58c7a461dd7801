import RemoteMemoryPool.Model.Preloaded
import RemoteMemoryPool.Proofs.ClientSpec

/-!
# The preload library is transparent

`Direct` is a program linked against the client itself: it calls `rmp_init` until that succeeds,
and from then on the thread that connected calls `rmp_alloc` where others use the C library.
`preload_transparent` says that an unmodified program under the preload library cannot be told
from it. The client, the fault handlers and the server never look at the variables of the
library, nor does an allocation look at the mutex the library holds around it: `Overlay` lays
other values over these, and every execution below `malloc` goes through it.
-/

namespace RemoteMemoryPool.Proofs

open Interaction Transition

/-! ### A program linked against the client -/

/-- Whether the C library's functions have been found, the thread that connected, and the rest of
the process. -/
structure Direct where
  hooked : Bool
  main : Option Nat
  sys : System

namespace Direct

def start (mem : Nat → UInt8) : Direct := ⟨false, none, System.start mem⟩

def remote (env : Env) (size t : Nat) (s : System) : Option (Observation × Direct) :=
  (s.execute env (Client.rmpAlloc (UInt32.ofNat (Preload.mallocPages size)))).map
    (fun x => (.pointer x.1, ⟨true, some t, x.2⟩))

/-- The first call of `rmp_init` that succeeds makes its thread the one that allocates remotely. -/
def connect (env : Env) (size : Nat) (s : System) : Option (Observation × Direct) :=
  (s.execute env Client.rmpInit).bind (fun x =>
    if x.1 = -1 then some (.pointer .null, ⟨true, none, x.2⟩)
    else remote env size env.pthreadSelf x.2)

def malloc (env : Env) (size : Nat) (d : Direct) : Option (Observation × Direct) :=
  if d.hooked = true ∨ env.dlsym = true then
    match d.main with
    | none => connect env size d.sys
    | some t =>
      if env.pthreadSelf = t then remote env size t d.sys
      else some (.pointer (.addr env.stdlibMalloc), d)
  else none

/-- One act of the program; nothing is ever freed, and memory is accessed as before. -/
def act : Env × ProgramAct → Direct → Option (Observation × Direct)
  | (env, .malloc size), d => d.malloc env size
  | (_, .free _), d => some (.done, d)
  | e, d => (System.act e d.sys).map (fun x => (x.1, { d with sys := x.2 }))

end Direct

/-! ### What the client does not look at -/

/-- Values for the variables of `preloadlib.cpp`, and possibly one for `fault_handler_cr`. -/
structure Overlay where
  hooked : Bool
  doLocalAllocation : Bool
  rmpFd : Int
  mainthreadId : Nat
  locked : Option Bool

namespace Overlay

variable (o : Overlay)

def onGlobals (g : Globals) : Globals :=
  { g with
    hooked := o.hooked
    doLocalAllocation := o.doLocalAllocation
    rmpFd := o.rmpFd
    mainthreadId := o.mainthreadId }

def onSystem (s : System) : System :=
  { s with globals := o.onGlobals s.globals, locked := o.locked.getD s.locked }

/-- Only the answer of `get` shows the overlay. -/
def onAnswer : (op : ClientOp) → op.Res → op.Res
  | .get, g => o.onGlobals g
  | _, r => r

/-- The operations that neither change nor depend on what is laid over. -/
def Passes : ClientOp → Prop
  | .modify f => ∀ g, f (o.onGlobals g) = o.onGlobals (f g)
  | .lock => o.locked = none
  | .unlock _ => o.locked = none
  | _ => True

end Overlay

section Execution

variable {o : Overlay} {env : Env}

lemma bufPage_onSystem (s : System) (buf : Buf) : (o.onSystem s).bufPage buf = s.bufPage buf := by
  cases buf <;> rfl

lemma exec_onSystem (op : ClientOp) (hop : o.Passes op) (s : System) :
    op.exec env (o.onSystem s) =
      (op.exec env s).map (fun y => (o.onAnswer op y.1, o.onSystem y.2)) := by
  cases op with
  | modify f =>
    exact congrArg (fun g => some ((), { o.onSystem s with globals := g })) (hop s.globals)
  | lock =>
    obtain ⟨h, l, fd, t, k⟩ := o
    obtain rfl : k = none := hop
    cases hs : s.locked <;> simp [ClientOp.exec, Overlay.onSystem, Overlay.onAnswer, hs]
  | unlock site =>
    obtain ⟨h, l, fd, t, k⟩ := o
    obtain rfl : k = none := hop
    rfl
  | poll uffd =>
    by_cases hp : (s.pending uffd).isSome = true <;>
      simp [ClientOp.exec, hp, Overlay.onSystem, Overlay.onAnswer]
  | readMsg uffd =>
    simp only [ClientOp.exec, Overlay.onSystem]
    cases s.pending uffd <;> rfl
  | loadPage src =>
    simp only [ClientOp.exec, bufPage_onSystem]
    cases s.bufPage src <;> rfl
  | storePage dst d =>
    cases dst with
    | staticPage =>
      simp only [ClientOp.exec, Overlay.onSystem]
      cases s.page <;> rfl
    | mem addr =>
      simp only [ClientOp.exec, bufPage_onSystem]
      cases s.bufPage (.mem addr) <;> rfl
  | recv =>
    simp only [ClientOp.exec, System.serve, Overlay.onSystem]
    cases s.requests <;> rfl
  | mmap len =>
    simp only [ClientOp.exec]
    cases env.mmapAnswer with
    | none => rfl
    | some a => by_cases hl : len = 0 <;> simp [hl, Overlay.onSystem, Overlay.onAnswer]
  | uffdioRegister uffd start len =>
    by_cases hr : env.uffdioRegister = -1 <;>
      simp [ClientOp.exec, hr, Overlay.onSystem, Overlay.onAnswer]
  | uffdioCopy uffd dst src =>
    simp only [ClientOp.exec, bufPage_onSystem]
    cases s.bufPage src with
    | none => rfl
    | some d =>
      by_cases hc : s.uffdAt (dst / 4096) = some uffd ∧ s.resident (dst / 4096) = none <;>
        simp [hc, Overlay.onSystem, Overlay.onAnswer]
  | pthreadCreate uffd =>
    by_cases hc : env.pthreadCreate.1 = 0 <;>
      simp [ClientOp.exec, hc, Overlay.onSystem, Overlay.onAnswer]
  | _ => rfl

/-- A program of the client that runs in the same way under the overlay. -/
abbrev Ignores (o : Overlay) {α : Type} (x : ClientM α) : Prop := x.Unaware o.Passes o.onAnswer

lemma execute_onSystem {α : Type} {x : ClientM α} (hx : Ignores o x) (s : System) :
    (o.onSystem s).execute env x = (s.execute env x).map (fun y => (y.1, o.onSystem y.2)) :=
  hx.runPartial exec_onSystem s

end Execution

section Ignores

variable {o : Overlay} {α β : Type}

lemma ignores_call (op : ClientOp) (hop : o.Passes op) (hr : ∀ r, o.onAnswer op r = r) :
    Ignores o op.call :=
  ⟨hop, fun r => ⟨congrArg Program.pure (hr r), trivial⟩⟩

lemma ignores_get_bind {f : Globals → ClientM β}
    (hf : ∀ g, f (o.onGlobals g) = f g ∧ Ignores o (f g)) : Ignores o (Client.get >>= f) :=
  .call_bind trivial hf

lemma ignores_modify {f : Globals → Globals} (hf : ∀ g, f (o.onGlobals g) = o.onGlobals (f g)) :
    Ignores o (Client.modify f) :=
  ignores_call (.modify f) hf (fun _ => rfl)

lemma ignores_terminate : Ignores o (Client.terminate : ClientM α) :=
  .bind (ignores_call .terminate trivial (fun _ => rfl)) (fun r => r.elim)

lemma ignores_mapAt {K V : Type} {m : Globals → UnorderedMap K V}
    (hm : ∀ g, m (o.onGlobals g) = m g) (k : K) : Ignores o (Client.mapAt m k) := by
  apply ignores_get_bind
  intro g
  rw [hm g]
  refine ⟨rfl, ?_⟩
  cases (m g).find k with
  | none => exact ignores_terminate
  | some v => exact .pure v

lemma ignores_rmpWritePage (hd : Handle) (offset : Nat) (buf : Buf) :
    Ignores o (Client.rmpWritePage hd offset buf) := by
  refine ignores_get_bind fun g => ⟨rfl, ?_⟩
  split
  · refine .bind (ignores_call .packetObject trivial (fun _ => rfl)) fun pkt => ?_
    refine .bind (ignores_call (.loadPage buf) trivial (fun _ => rfl)) fun data => ?_
    refine .bind (ignores_call (.send _) trivial (fun _ => rfl)) fun _ => ?_
    exact .bind (ignores_call .recv trivial (fun _ => rfl)) fun _ => .pure _
  · exact .pure _

lemma ignores_rmpReadPage (hd : Handle) (offset : Nat) (buf : Buf) :
    Ignores o (Client.rmpReadPage hd offset buf) := by
  refine ignores_get_bind fun g => ⟨rfl, ?_⟩
  split
  · refine .bind (ignores_call .packetObject trivial (fun _ => rfl)) fun pkt => ?_
    refine .bind (ignores_call (.send _) trivial (fun _ => rfl)) fun _ => ?_
    refine .bind (ignores_call .recv trivial (fun _ => rfl)) fun reply => ?_
    exact ignores_call (.storePage buf reply.data) trivial (fun _ => rfl)
  · exact .pure _

lemma ignores_rmpPagefaultResovler (startAddr faultingAddr isWrite : Nat) (buf : Buf) :
    Ignores o (Client.rmpPagefaultResovler startAddr faultingAddr isWrite buf) := by
  refine .bind (ignores_call (.enterResolver _) trivial (fun _ => rfl)) fun _ => ?_
  refine .bind (ignores_mapAt (fun _ => rfl) startAddr) fun hndl => ?_
  split
  · exact ignores_rmpWritePage _ _ _
  · exact ignores_rmpReadPage _ _ _

lemma ignores_uffdmanInit : Ignores o Uffdman.init := by
  refine ignores_get_bind fun g => ⟨rfl, ?_⟩
  split
  · exact .pure _
  · exact ignores_modify (fun _ => rfl)

lemma ignores_rmpInit : Ignores o Client.rmpInit := by
  refine .bind (ignores_call .socket trivial (fun _ => rfl)) fun fd => ?_
  split
  · exact .pure _
  · refine .bind (ignores_call .connect trivial (fun _ => rfl)) fun r => ?_
    split
    · exact .pure _
    · refine .bind (ignores_modify (fun _ => rfl)) fun _ => ?_
      refine .bind ignores_uffdmanInit fun _ => ?_
      exact .bind (ignores_modify (fun _ => rfl)) fun _ => .pure _

lemma ignores_registerRegion (addr n : Nat) : Ignores o (Uffdman.registerRegion addr n) := by
  refine .bind (ignores_call .userfaultfd trivial (fun _ => rfl)) fun uffd => ?_
  split
  · exact .pure _
  · refine .bind (ignores_call (.uffdioApi uffd) trivial (fun _ => rfl)) fun r => ?_
    split
    · exact .pure _
    · refine .bind (ignores_call (.uffdioRegister uffd addr _) trivial (fun _ => rfl)) fun r => ?_
      split
      · exact .pure _
      · refine .bind (ignores_call (.pthreadCreate uffd) trivial (fun _ => rfl)) fun created => ?_
        obtain ⟨out, thrdId⟩ := created
        dsimp only
        split
        · exact .pure _
        · refine .bind (ignores_modify (fun _ => rfl)) fun _ => ?_
          refine .bind (ignores_modify (fun _ => rfl)) fun _ => ?_
          exact .bind (ignores_modify (fun _ => rfl)) fun _ => .pure _

lemma ignores_rmpAlloc (npages : UInt32) : Ignores o (Client.rmpAlloc npages) := by
  refine .bind (ignores_call (.mmap _) trivial (fun _ => rfl)) fun r => ?_
  cases r with
  | none => exact .pure _
  | some a =>
    refine ignores_get_bind fun g => ⟨rfl, ?_⟩
    split
    · refine .bind (ignores_call .packetObject trivial (fun _ => rfl)) fun pkt => ?_
      refine .bind (ignores_call (.send _) trivial (fun _ => rfl)) fun _ => ?_
      refine .bind (ignores_call .recv trivial (fun _ => rfl)) fun reply => ?_
      refine .bind (ignores_registerRegion _ _) fun _ => ?_
      refine .bind (ignores_modify (fun _ => rfl)) fun _ => ?_
      exact .bind (ignores_modify (fun _ => rfl)) fun _ => .pure _
    · exact .pure _

lemma ignores_invalidatePrevResolvedPage (uffd : Int) :
    Ignores o (Uffdman.invalidatePrevResolvedPage Client.rmpPagefaultResovler uffd) := by
  refine ignores_get_bind fun g => ⟨rfl, ?_⟩
  split
  · refine .bind (ignores_mapAt (fun _ => rfl) uffd) fun addr => ?_
    refine .bind (ignores_mapAt (fun _ => rfl) uffd) fun op => ?_
    refine .bind (ignores_mapAt (fun _ => rfl) uffd) fun start => ?_
    refine .bind ?_ fun _ => ignores_call (.madvise _ _) trivial (fun _ => rfl)
    unfold Uffdman.resolveWrite
    split
    · exact ignores_rmpPagefaultResovler _ _ _ _
    · exact .pure _
  · exact .pure _

lemma ignores_resolveFault (uffd : Int) (faultingAddr faultingOp : Nat) :
    Ignores o (Uffdman.resolveFault Client.rmpPagefaultResovler uffd faultingAddr faultingOp) := by
  refine .bind (ignores_invalidatePrevResolvedPage uffd) fun _ => ?_
  refine .bind ?_ fun _ => ?_
  · unfold Uffdman.resolveRead
    split
    · exact .bind (ignores_mapAt (fun _ => rfl) uffd) fun start =>
        ignores_rmpPagefaultResovler _ _ _ _
    · exact .pure _
  · refine .bind (ignores_call (.uffdioCopy _ _ _) trivial (fun _ => rfl)) fun r => ?_
    split
    · exact .pure _
    · refine .bind ?_ fun _ => .pure _
      exact .bind (ignores_modify (fun _ => rfl)) fun _ => ignores_modify (fun _ => rfl)

lemma ignores_faultHandlerIteration (ho : o.locked = none) (uffd : Int) :
    Ignores o (Uffdman.faultHandlerIteration Client.rmpPagefaultResovler uffd) := by
  refine .bind (ignores_call (.poll uffd) trivial (fun _ => rfl)) fun r => ?_
  split
  · exact .pure _
  · refine .bind (ignores_call (.readMsg uffd) trivial (fun _ => rfl)) fun n => ?_
    split
    · exact .pure _
    · split
      · exact .pure _
      · refine ignores_get_bind fun g => ⟨rfl, ?_⟩
        split
        · exact .pure _
        · split
          · exact .pure _
          · refine ignores_get_bind fun g => ⟨rfl, ?_⟩
            refine .bind (ignores_call .lock ho (fun _ => rfl)) fun _ => ?_
            refine .bind (ignores_resolveFault _ _ _) fun _ => ?_
            exact .bind (ignores_call (.unlock _) ho (fun _ => rfl)) fun _ => .pure _

lemma ignores_createPage : Ignores o Uffdman.createPage := by
  refine .bind (ignores_call .pageIsNull trivial (fun _ => rfl)) fun r => ?_
  split
  · exact ignores_call .mmapPage trivial (fun _ => rfl)
  · exact .pure _

end Ignores

/-! ### Calls of the library -/

/-- The variables of the library in a state. -/
def Overlay.of (s : System) : Overlay :=
  ⟨s.globals.hooked, s.globals.doLocalAllocation, s.globals.rmpFd, s.globals.mainthreadId, none⟩

section Library

variable {o : Overlay} {env : Env} {u : System}

lemma onSystem_mainthreadId : (o.onSystem u).globals.mainthreadId = o.mainthreadId := rfl

lemma execute_pthreadSelf : u.execute env Client.pthreadSelf = some (env.pthreadSelf, u) := rfl

lemma execute_dlsym : u.execute env Client.dlsym = some (env.dlsym, u) := rfl

lemma execute_terminate {α : Type} : u.execute env (Client.terminate : ClientM α) = none := rfl

lemma execute_setDoLocalAllocation (b : Bool) : (o.onSystem u).execute env
    (Client.modify fun g => { g with doLocalAllocation := b }) =
      some ((), { o with doLocalAllocation := b }.onSystem u) := rfl

lemma execute_setMainthreadId (t : Nat) : (o.onSystem u).execute env
    (Client.modify fun g => { g with mainthreadId := t }) =
      some ((), { o with mainthreadId := t }.onSystem u) := rfl

lemma execute_setRmpFd (fd : Int) : (o.onSystem u).execute env
    (Client.modify fun g => { g with rmpFd := fd }) =
      some ((), { o with rmpFd := fd }.onSystem u) := rfl

lemma execute_release (site : UnlockSite) : (o.onSystem u).execute env (Client.unlock site) =
    some ((), { o with locked := some false }.onSystem u) := rfl

lemma execute_acquire (ho : o.locked = none) (hu : u.locked = false) :
    (o.onSystem u).execute env Client.lock =
      some ((), { o with locked := some true }.onSystem u) := by
  have hfree : (o.onSystem u).locked = false := by
    unfold Overlay.onSystem
    rw [ho, Option.getD_none, hu]
  simp only [execute_lock, ClientOp.exec, hfree]
  rfl

/-- What runs in the same way whether the mutex is held or not leaves it alone. -/
lemma locked_of_ignores {α : Type} {x : ClientM α} (hx : ∀ o, Ignores o x) {a : α} {v : System}
    (h : u.execute env x = some (a, v)) : v.locked = u.locked := by
  have hrun : u.execute env x = _ :=
    execute_onSystem (hx { Overlay.of u with locked := some u.locked }) u
  rw [h] at hrun
  exact congrArg (fun y => y.2.locked) (Option.some.inj hrun)

lemma onSystem_unlocked {h l : Bool} {fd : Int} {t : Nat} {k : Option Bool} (hk : k = none)
    (hu : u.locked = false) :
    Overlay.onSystem ⟨h, l, fd, t, some false⟩ u = Overlay.onSystem ⟨h, l, fd, t, k⟩ u := by
  unfold Overlay.onSystem
  dsimp only
  rw [hk, Option.getD_none, hu]
  rfl

lemma execute_rmpConnInit (ho : o.locked = none) (hu : u.locked = false) :
    (o.onSystem u).execute env Preload.rmpConnInit = (u.execute env Client.rmpInit).map
      (fun x => ((), { o with
        doLocalAllocation := false, rmpFd := x.1,
        mainthreadId := env.pthreadSelf }.onSystem x.2)) := by
  simp only [Preload.rmpConnInit, execute_bind, execute_acquire ho hu, Option.bind_some,
    execute_setDoLocalAllocation, execute_pthreadSelf, execute_setMainthreadId,
    execute_onSystem ignores_rmpInit]
  cases hinit : u.execute env Client.rmpInit with
  | none => rfl
  | some x =>
    have hfree := (locked_of_ignores (fun _ => ignores_rmpInit) hinit).trans hu
    rw [Option.map_some, Option.map_some]
    simp only [Option.bind_some, execute_setRmpFd, execute_setDoLocalAllocation, execute_release]
    rw [onSystem_unlocked ho hfree]

lemma execute_remoteMalloc (ho : o.locked = none) (hu : u.locked = false) (size : Nat) :
    (o.onSystem u).execute env (Preload.remoteMalloc size) =
      (u.execute env (Client.rmpAlloc (UInt32.ofNat (Preload.mallocPages size)))).map
        (fun x => (x.1, { o with doLocalAllocation := false }.onSystem x.2)) := by
  simp only [Preload.remoteMalloc, execute_bind, execute_acquire ho hu, Option.bind_some,
    execute_setDoLocalAllocation, execute_onSystem (ignores_rmpAlloc _)]
  cases halloc : u.execute env (Client.rmpAlloc (UInt32.ofNat (Preload.mallocPages size))) with
  | none => rfl
  | some x =>
    have hfree := (locked_of_ignores (fun _ => ignores_rmpAlloc _) halloc).trans hu
    rw [Option.map_some, Option.map_some]
    simp only [Option.bind_some, execute_setDoLocalAllocation, execute_release, execute_pure]
    rw [onSystem_unlocked ho hfree]

lemma execute_hookOnce : (o.onSystem u).execute env Preload.hookOnce =
    if o.hooked = true ∨ env.dlsym = true then some ((), { o with hooked := true }.onSystem u)
    else none := by
  obtain ⟨h, l, fd, t, k⟩ := o
  unfold Preload.hookOnce Preload.preloadlibInit
  rw [execute_bind, execute_get]
  cases h with
  | true => rfl
  | false =>
    cases hd : env.dlsym with
    | true => simp [Overlay.onSystem, Overlay.onGlobals, execute_dlsym, hd]
    | false => simp [Overlay.onSystem, Overlay.onGlobals, execute_dlsym, hd, execute_terminate]

lemma execute_checkConn_connected (hh : o.hooked = true ∨ env.dlsym = true) (hfd : o.rmpFd ≠ -1) :
    (o.onSystem u).execute env Preload.checkConn =
      some (true, { o with hooked := true }.onSystem u) := by
  unfold Preload.checkConn Preload.connectOnce
  simp only [execute_bind, execute_hookOnce, if_pos hh, Option.bind_some, execute_get]
  rw [if_neg]
  · simp [Overlay.onSystem, Overlay.onGlobals, hfd]
  · exact hfd

lemma execute_checkConn_unconnected (hh : o.hooked = true ∨ env.dlsym = true) (hfd : o.rmpFd = -1)
    (ho : o.locked = none) (hu : u.locked = false) :
    (o.onSystem u).execute env Preload.checkConn = (u.execute env Client.rmpInit).map (fun x =>
      (decide (x.1 ≠ -1), { o with
        hooked := true, doLocalAllocation := false, rmpFd := x.1,
        mainthreadId := env.pthreadSelf }.onSystem x.2)) := by
  unfold Preload.checkConn Preload.connectOnce
  simp only [execute_bind, execute_hookOnce, if_pos hh, Option.bind_some, execute_get]
  rw [if_pos]
  · rw [execute_rmpConnInit (o := { o with hooked := true }) ho hu]
    cases u.execute env Client.rmpInit <;> rfl
  · exact hfd

end Library

/-! ### The two programs agree -/

/-- The process under the library is that of the program linked against the client but for the
variables of the library, which tell whether and by which thread a connection has been made;
no call is in progress. -/
structure SeenAs (s : System) (d : Direct) : Prop where
  same : (Overlay.of s).onSystem d.sys = s
  unlocked : s.locked = false
  hooked : s.globals.hooked = d.hooked
  idle : s.globals.doLocalAllocation = false
  unconnected : d.main = none → s.globals.rmpFd = -1
  connected : ∀ t, d.main = some t →
    d.hooked = true ∧ s.globals.rmpFd ≠ -1 ∧ s.globals.mainthreadId = t

abbrev Alike (x : Observation × System) (y : Observation × Direct) : Prop :=
  x.1 = y.1 ∧ SeenAs x.2 y.2

/-- The process between two calls of the library. -/
abbrev resting (hooked : Bool) (fd : Int) (t : Nat) (u : System) : System :=
  Overlay.onSystem ⟨hooked, false, fd, t, none⟩ u

section Simulation

variable {s u v : System} {d : Direct} {env : Env} {o : Overlay} {fd : Int} {h : Bool}

lemma SeenAs.direct_unlocked (h : SeenAs s d) : d.sys.locked = false := by
  rw [← h.unlocked, ← h.same]
  rfl

lemma start_seenAs (mem : Nat → UInt8) : SeenAs (System.start mem) (Direct.start mem) where
  same := rfl
  unlocked := rfl
  hooked := rfl
  idle := rfl
  unconnected _ := rfl
  connected t ht := by simp [Direct.start] at ht

lemma seenAs_connected (hu : u.locked = false) (hfd : fd ≠ -1) (t : Nat) :
    SeenAs (resting true fd t u) ⟨true, some t, u⟩ where
  same := rfl
  unlocked := hu
  hooked := rfl
  idle := rfl
  unconnected hmain := by simp at hmain
  connected t' ht := ⟨rfl, hfd, Option.some.inj ht⟩

lemma remote_alike (env : Env) (hu : u.locked = false) (hfd : fd ≠ -1) (size t : Nat) :
    Option.Rel Alike
      (((resting true fd t u).execute env (Preload.remoteMalloc size)).map
        (fun x => (.pointer x.1, x.2)))
      (Direct.remote env size t u) := by
  rw [execute_remoteMalloc rfl hu]
  unfold Direct.remote
  cases halloc : u.execute env (Client.rmpAlloc (UInt32.ofNat (Preload.mallocPages size))) with
  | none => exact .none
  | some x =>
    have hfree := (locked_of_ignores (fun _ => ignores_rmpAlloc _) halloc).trans hu
    exact .some ⟨rfl, seenAs_connected hfree hfd t⟩

lemma execute_malloc (size t : Nat) :
    (resting h fd t u).execute env (Preload.malloc size) =
      ((resting h fd t u).execute env Preload.checkConn).bind (fun x =>
        if x.1 = true then
          if env.pthreadSelf = x.2.globals.mainthreadId then
            x.2.execute env (Preload.remoteMalloc size)
          else x.2.execute env (Preload.localMalloc size)
        else some (.null, x.2)) := by
  unfold Preload.malloc
  rw [execute_bind, execute_get]
  change System.execute env (Preload.checkConn >>= _) _ = _
  rw [execute_bind]
  congr 1
  funext x
  by_cases hx : x.1 = true
  · rw [if_pos hx, if_pos hx, execute_bind, execute_pthreadSelf]
    simp only [Option.bind_some, execute_bind, execute_get]
    by_cases ht : env.pthreadSelf = x.2.globals.mainthreadId
    · rw [if_neg (not_not.mpr ht), if_pos ht]
    · rw [if_pos ht, if_neg ht]
  · rw [if_neg hx, if_neg hx]
    rfl

lemma SeenAs.eq_onSystem (h : SeenAs s d) :
    s = resting d.hooked s.globals.rmpFd s.globals.mainthreadId d.sys := by
  have hsame := h.same
  unfold Overlay.of at hsame
  rw [h.hooked, h.idle] at hsame
  exact hsame.symm

lemma execute_localMalloc (size t : Nat) :
    (resting true fd t u).execute env (Preload.localMalloc size) =
      some (.addr env.stdlibMalloc, resting true fd t u) := rfl

lemma connect_alike (hu : u.locked = false) (hh : h = true ∨ env.dlsym = true) (size t : Nat) :
    Option.Rel Alike
      (((resting h (-1) t u).execute env (Preload.malloc size)).map
        (fun x => (.pointer x.1, x.2)))
      (Direct.connect env size u) := by
  rw [execute_malloc, execute_checkConn_unconnected hh rfl rfl hu]
  unfold Direct.connect
  cases hinit : u.execute env Client.rmpInit with
  | none => exact .none
  | some x =>
    obtain ⟨fd, v⟩ := x
    have hfree := (locked_of_ignores (fun _ => ignores_rmpInit) hinit).trans hu
    by_cases hfd : fd = -1
    · subst hfd
      refine .some ⟨rfl, ?_⟩
      exact ⟨rfl, hfree, rfl, rfl, fun _ => rfl, by simp⟩
    · have hremote := remote_alike env hfree hfd size env.pthreadSelf
      simpa [hfd, onSystem_mainthreadId] using hremote

lemma connected_alike (hu : u.locked = false) (hfd : fd ≠ -1) (size t : Nat) :
    Option.Rel Alike
      (((resting true fd t u).execute env (Preload.malloc size)).map
        (fun x => (.pointer x.1, x.2)))
      (if env.pthreadSelf = t then Direct.remote env size t u
        else some (.pointer (.addr env.stdlibMalloc), ⟨true, some t, u⟩)) := by
  rw [execute_malloc, execute_checkConn_connected (Or.inl rfl) hfd]
  by_cases ht : env.pthreadSelf = t
  · have hremote := remote_alike env hu hfd size t
    simpa [ht, onSystem_mainthreadId] using hremote
  · have hother : ¬env.pthreadSelf =
        (resting true fd t u).globals.mainthreadId := ht
    simp only [Option.bind_some, if_true, if_neg hother, if_neg ht, execute_localMalloc]
    exact .some ⟨rfl, seenAs_connected hu hfd t⟩

lemma malloc_alike (h : SeenAs s d) (size : Nat) :
    Option.Rel Alike ((s.execute env (Preload.malloc size)).map (fun x => (.pointer x.1, x.2)))
      (d.malloc env size) := by
  have hu := h.direct_unlocked
  have heq := h.eq_onSystem
  unfold Direct.malloc
  by_cases hh : d.hooked = true ∨ env.dlsym = true
  · rw [if_pos hh]
    cases hmain : d.main with
    | none =>
      rw [h.unconnected hmain] at heq
      rw [heq]
      exact connect_alike hu hh size _
    | some t =>
      obtain ⟨hhooked, hfd, ht⟩ := h.connected t hmain
      have hd : d = ⟨true, some t, d.sys⟩ := by rw [← hhooked, ← hmain]
      rw [ht, hhooked] at heq
      rw [heq, hd]
      exact connected_alike hu hfd size t
  · have hstop : s.execute env Preload.checkConn = none := by
      rw [heq]
      unfold Preload.checkConn
      rw [execute_bind, execute_hookOnce, if_neg hh]
      rfl
    rw [if_neg hh, heq, execute_malloc, ← heq, hstop]
    exact .none

def raised (uffd : Int) (byWrite : Bool) (addr : Nat) (u : System) : System :=
  let msg : UffdMsg := ⟨.pagefault, if byWrite then uffdPagefaultFlagWrite else 0, addr⟩
  { u with pending := Function.update u.pending uffd (some msg) }

lemma fault_handled {uffd : Int} {tid addr : Nat} (hat : u.uffdAt (addr / 4096) = some uffd)
    (hhandler : u.handlerOf uffd = some tid) (byWrite : Bool) :
    u.fault env byWrite addr = ((raised uffd byWrite addr u).execute env
      (Uffdman.faultHandlerIteration Client.rmpPagefaultResovler uffd)).bind
        (fun x => if x.1 = true then some x.2 else none) := by
  simp only [System.fault, hat, hhandler]
  unfold raised
  cases System.execute env (Uffdman.faultHandlerIteration Client.rmpPagefaultResovler uffd) _ with
  | none => rfl
  | some x =>
    obtain ⟨goesOn, v⟩ := x
    cases goesOn <;> rfl

lemma fault_eq_some {byWrite : Bool} {addr : Nat} (h : u.fault env byWrite addr = some v) :
    ∃ uffd, (raised uffd byWrite addr u).execute env
      (Uffdman.faultHandlerIteration Client.rmpPagefaultResovler uffd) = some (true, v) := by
  cases hat : u.uffdAt (addr / 4096) with
  | none => simp [System.fault, hat] at h
  | some uffd =>
    cases hhandler : u.handlerOf uffd with
    | none => simp [System.fault, hat, hhandler] at h
    | some tid =>
      rw [fault_handled hat hhandler] at h
      obtain ⟨⟨goesOn, v'⟩, hx, hv⟩ := Option.bind_eq_some_iff.mp h
      cases goesOn with
      | false => cases hv
      | true =>
        obtain rfl := Option.some.inj hv
        exact ⟨uffd, hx⟩

lemma fetch_eq_some {byWrite : Bool} {addr : Nat} {x : Page × System}
    (h : u.fetch env byWrite addr = some x) : x.2 = u ∨ u.fault env byWrite addr = some x.2 := by
  unfold System.fetch at h
  cases hres : u.resident (addr / 4096) with
  | some page =>
    rw [hres] at h
    exact Or.inl (congrArg Prod.snd (Option.some.inj h)).symm
  | none =>
    rw [hres] at h
    cases hf : u.fault env byWrite addr with
    | none => simp [hf] at h
    | some v =>
      simp only [hf] at h
      obtain ⟨page, -, rfl⟩ := Option.map_eq_some_iff.mp h
      exact Or.inr rfl

lemma fault_onSystem (ho : o.locked = none) (byWrite : Bool) (addr : Nat) (u : System) :
    (o.onSystem u).fault env byWrite addr = (u.fault env byWrite addr).map o.onSystem := by
  cases hat : u.uffdAt (addr / 4096) with
  | none =>
    have hat' : (o.onSystem u).uffdAt (addr / 4096) = none := hat
    simp only [System.fault, hat, hat', Option.map_none]
  | some uffd =>
    have hat' : (o.onSystem u).uffdAt (addr / 4096) = some uffd := hat
    cases hhandler : u.handlerOf uffd with
    | none =>
      have hhandler' : (o.onSystem u).handlerOf uffd = none := hhandler
      simp only [System.fault, hat, hat', hhandler, hhandler', Option.map_none]
    | some tid =>
      have hhandler' : (o.onSystem u).handlerOf uffd = some tid := hhandler
      rw [fault_handled hat hhandler, fault_handled hat' hhandler']
      have hraised : raised uffd byWrite addr (o.onSystem u) =
          o.onSystem (raised uffd byWrite addr u) := rfl
      rw [hraised, execute_onSystem (ignores_faultHandlerIteration ho uffd)]
      cases (raised uffd byWrite addr u).execute env
          (Uffdman.faultHandlerIteration Client.rmpPagefaultResovler uffd) with
      | none => rfl
      | some x => by_cases hx : x.1 = true <;> simp [hx]

lemma fetch_onSystem (ho : o.locked = none) (byWrite : Bool) (addr : Nat) (u : System) :
    (o.onSystem u).fetch env byWrite addr =
      (u.fetch env byWrite addr).map (fun x => (x.1, o.onSystem x.2)) := by
  have hres : ∀ v : System, (o.onSystem v).resident = v.resident := fun _ => rfl
  unfold System.fetch
  rw [hres]
  cases u.resident (addr / 4096) with
  | some page => rfl
  | none =>
    rw [fault_onSystem ho]
    cases u.fault env byWrite addr with
    | none => rfl
    | some v =>
      simp only [Option.map_some, hres]
      cases v.resident (addr / 4096) <;> rfl

lemma load_onSystem (ho : o.locked = none) (addr : Nat) (u : System) :
    (o.onSystem u).load env addr = (u.load env addr).map (fun x => (x.1, o.onSystem x.2)) := by
  unfold System.load
  rw [fetch_onSystem ho]
  cases u.fetch env false addr <;> rfl

lemma store_onSystem (ho : o.locked = none) (addr : Nat) (value : UInt8) (u : System) :
    (o.onSystem u).store env addr value = (u.store env addr value).map o.onSystem := by
  unfold System.store
  rw [fetch_onSystem ho]
  cases u.fetch env true addr <;> rfl

lemma handlePagefault_unlocked (hu : u.locked = false) {uffd : Int} {x : Bool × System}
    (h : u.execute env (Uffdman.handlePagefault Client.rmpPagefaultResovler uffd) = some x) :
    x.2.locked = false := by
  rw [execute_handlePagefault _ _ _ hu] at h
  obtain ⟨y, -, rfl⟩ := Option.map_eq_some_iff.mp h
  rfl

lemma fault_unlocked (hu : u.locked = false) {byWrite : Bool} {addr : Nat}
    (h : u.fault env byWrite addr = some v) : v.locked = false := by
  obtain ⟨uffd, hx⟩ := fault_eq_some h
  rw [execute_iteration _ _ (Function.update_self _ _ _) rfl] at hx
  exact handlePagefault_unlocked (by exact hu) hx

lemma fetch_unlocked (hu : u.locked = false) {byWrite : Bool} {addr : Nat} {x : Page × System}
    (h : u.fetch env byWrite addr = some x) : x.2.locked = false := by
  rcases fetch_eq_some h with hx | hf
  · rw [hx]
    exact hu
  · exact fault_unlocked hu hf

lemma SeenAs.under (h : SeenAs s d) (hv : v.locked = false) :
    SeenAs ((Overlay.of s).onSystem v) { d with sys := v } where
  same := rfl
  unlocked := hv
  hooked := h.hooked
  idle := h.idle
  unconnected := h.unconnected
  connected := h.connected

/-- An act that goes through the overlay and leaves the mutex free keeps the two programs alike. -/
lemma SeenAs.through (h : SeenAs s d) {e : Env × ProgramAct}
    (hact : System.act e ((Overlay.of s).onSystem d.sys) =
      (System.act e d.sys).map (fun x => (x.1, (Overlay.of s).onSystem x.2)))
    (hfree : ∀ x, System.act e d.sys = some x → x.2.locked = false) :
    Option.Rel Alike (System.act e s)
      ((System.act e d.sys).map (fun x => (x.1, { d with sys := x.2 }))) := by
  rw [h.same] at hact
  rw [hact]
  cases hx : System.act e d.sys with
  | none => exact .none
  | some x => exact .some ⟨rfl, h.under (hfree x hx)⟩

lemma act_alike (e : Env × ProgramAct) (s : System) (d : Direct) (h : SeenAs s d) :
    Option.Rel Alike (System.act e s) (Direct.act e d) := by
  have hu := h.direct_unlocked
  have hown : (Overlay.of s).locked = none := rfl
  obtain ⟨env, e⟩ := e
  cases e with
  | malloc size => exact malloc_alike h size
  | free ptr => exact .some ⟨rfl, h⟩
  | load addr =>
    apply h.through
    · simp only [System.act, load_onSystem hown, Option.map_map]
      rfl
    · intro x hx
      obtain ⟨y, hy, rfl⟩ := Option.map_eq_some_iff.mp hx
      obtain ⟨z, hz, rfl⟩ := Option.map_eq_some_iff.mp hy
      exact fetch_unlocked hu hz
  | store addr value =>
    apply h.through
    · simp only [System.act, store_onSystem hown, Option.map_map]
      rfl
    · intro x hx
      obtain ⟨y, hy, rfl⟩ := Option.map_eq_some_iff.mp hx
      obtain ⟨z, hz, rfl⟩ := Option.map_eq_some_iff.mp hy
      exact fetch_unlocked hu hz
  | handlerStart =>
    apply h.through
    · simp only [System.act, execute_onSystem ignores_createPage, Option.map_map]
      rfl
    · intro x hx
      obtain ⟨y, hy, rfl⟩ := Option.map_eq_some_iff.mp hx
      exact (locked_of_ignores (fun _ => ignores_createPage) hy).trans hu

/-- An unmodified program under the preload library, started with a fresh server, makes the same
observations as the program linked against the client, act by act and in every order of acts of
its threads; it ends when that one ends, and apart from the variables of the library the two
processes, their kernel's tables and the server are always the same. -/
theorem preload_transparent (mem : Nat → UInt8) (acts : List (Env × ProgramAct)) :
    Option.Rel (fun x y => x.1 = y.1 ∧ SeenAs x.2 y.2) (observe System.act acts (System.start mem))
      (observe Direct.act acts (Direct.start mem)) :=
  observe_agree act_alike acts (start_seenAs mem)

end Simulation

end RemoteMemoryPool.Proofs
