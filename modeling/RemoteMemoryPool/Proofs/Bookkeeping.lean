import RemoteMemoryPool.Proofs.Session

/-!
# The maps of the userfaultfd manager

`uffdman.cpp` keeps five maps about the registered regions, keyed by address, by descriptor and,
by mistake, by thread id: `uffdman_unregister_region` erases the thread id from `addr_tid_map`,
whose keys are addresses. `bookkeeping_iff` says that the maps stay consistent exactly as long as
no region is unregistered whose thread id is not, as a number, its start address.
-/

namespace RemoteMemoryPool.Proofs

open Interaction Transition

/-- The five maps, and the handler threads that run. -/
@[ext]
structure Books where
  addrTid : UnorderedMap Nat Nat
  startAddrUffd : UnorderedMap Nat Int
  uffdStartAddr : UnorderedMap Int Nat
  prevAddr : UnorderedMap Int Nat
  prevOp : UnorderedMap Int Nat
  handlerOf : Int → Option Nat

def books (s : System) : Books where
  addrTid := s.globals.addrTidMap
  startAddrUffd := s.globals.startAddrUffdMap
  uffdStartAddr := s.globals.uffdStartAddrMap
  prevAddr := s.globals.uffdPrevResolvedAddr
  prevOp := s.globals.uffdPrevResolvedOp
  handlerOf := s.handlerOf

def cancels {α : Type} (env : Env) (x : ClientM α) (s : System) : List Nat :=
  (x.performedPartial (ClientOp.exec env) s).filterMap (fun y => match y.2 with
    | .pthreadCancel tid => some tid
    | _ => none)

/-! ### The effect of the three functions -/

section Programs

variable {α : Type} {env : Env} {s s' : System}

def KeepsBooks (op : ClientOp) : Prop :=
  (∀ env s r s', op.exec env s = some (r, s') → books s' = books s) ∧ ∀ tid, op ≠ .pthreadCancel tid

lemma execute_books {x : ClientM α} (hx : x.OnlyPerforms KeepsBooks) {a : α}
    (h : s.execute env x = some (a, s')) : books s' = books s :=
  hx.runPartial (ClientOp.exec env) (R := fun s t => books t = books s) (fun _ => rfl)
    (fun _ _ _ h₁ h₂ => h₂.trans h₁) (fun _ hop s r t ht => hop.1 env s r t ht) h

lemma cancels_bind {β : Type} (x : ClientM α) (f : α → ClientM β) :
    cancels env (x >>= f) s =
      cancels env x s ++ (s.execute env x).elim [] (fun y => cancels env (f y.1) y.2) := by
  unfold cancels System.execute
  rw [Program.performedPartial_bind, List.filterMap_append]
  cases x.runPartial (ClientOp.exec env) s <;> rfl

lemma cancels_quiet {x : ClientM α} (hx : x.OnlyPerforms KeepsBooks) : cancels env x s = [] := by
  apply List.filterMap_eq_nil_iff.mpr
  intro y hy
  have hop := (Program.OnlyPerforms.performedPartial _ hx s y hy).2
  split
  · next tid he => exact absurd he (hop tid)
  · rfl

@[simp] lemma cancels_pure (a : α) : cancels env (pure a : ClientM α) s = [] := rfl

@[simp] lemma cancels_get : cancels env Client.get s = [] := rfl

@[simp] lemma cancels_modify (f : Globals → Globals) : cancels env (Client.modify f) s = [] := rfl

@[simp] lemma cancels_pthreadCancel (tid : Nat) :
    cancels env (Client.pthreadCancel tid) s = [tid] := rfl

lemma keepsBooks_resolverOp (op : ClientOp) (h : ResolverOp op) : KeepsBooks op := by
  refine ⟨?_, by rintro tid rfl; exact h.elim⟩
  intro env s r s' he
  cases op with
  | get => cases he; rfl
  | terminate => cases he
  | packetObject => cases he; rfl
  | loadPage src =>
    obtain ⟨d, -, hd⟩ := Option.map_eq_some_iff.mp he
    cases hd
    rfl
  | storePage dst data =>
    cases dst with
    | staticPage =>
      obtain ⟨d, -, hd⟩ := Option.map_eq_some_iff.mp he
      cases hd
      rfl
    | mem addr =>
      obtain ⟨d, -, hd⟩ := Option.map_eq_some_iff.mp he
      cases hd
      rfl
  | enterResolver call => cases he; rfl
  | send packet => cases he; rfl
  | recv =>
    simp only [ClientOp.exec, System.serve] at he
    split at he
    · cases he
    · cases he
      rfl
  | _ => exact h.elim

lemma keepsBooks_madvise (addr len : Nat) : KeepsBooks (.madvise addr len) := by
  refine ⟨?_, by simp⟩
  intro env s r s' he
  cases he
  rfl

lemma keepsBooks_invalidate (uffd : Int) :
    (Uffdman.invalidatePrevResolvedPage Client.rmpPagefaultResovler uffd).OnlyPerforms
      KeepsBooks := by
  have hmap {K V : Type} (m : Globals → UnorderedMap K V) (k : K) :
      (Client.mapAt m k).OnlyPerforms KeepsBooks := (onlyPerforms_mapAt m k).mono keepsBooks_resolverOp
  refine .bind (onlyPerforms_call .get (keepsBooks_resolverOp _ trivial)) fun g => ?_
  split
  · refine .bind (hmap _ _) fun a => .bind (hmap _ _) fun op => .bind (hmap _ _) fun start =>
      .bind ?_ fun _ => onlyPerforms_call _ (keepsBooks_madvise _ _)
    unfold Uffdman.resolveWrite
    split
    · exact (onlyPerforms_rmpPagefaultResovler _ _ _ _).mono keepsBooks_resolverOp
    · exact .pure _
  · exact .pure _

def Books.registered (b : Books) (addr : Nat) (uffd : Int) (tid : Nat) : Books :=
  { b with
    addrTid := b.addrTid.insert addr tid
    startAddrUffd := b.startAddrUffd.insert addr uffd
    uffdStartAddr := b.uffdStartAddr.insert uffd addr
    handlerOf := Function.update b.handlerOf uffd (some tid) }

lemma register_effect {addr nPages : Nat}
    (h : s.execute env (Uffdman.registerRegion addr nPages) = some (0, s')) :
    books s' = (books s).registered addr env.userfaultfd env.pthreadCreate.2 := by
  simp only [Uffdman.registerRegion, execute_bind, execute_userfaultfd, ClientOp.exec,
    Option.bind_some] at h
  split at h
  · simp at h
  simp only [execute_bind, execute_uffdioApi, ClientOp.exec, Option.bind_some] at h
  split at h
  · simp at h
  simp only [execute_bind, execute_uffdioRegister, ClientOp.exec] at h
  by_cases hr : env.uffdioRegister = -1
  · simp [hr] at h
  simp only [hr, if_false, Option.bind_some, execute_bind, execute_pthreadCreate, ClientOp.exec] at h
  by_cases hc : env.pthreadCreate.1 = 0
  · simp only [hc, if_true, Option.bind_some, ne_eq, not_true_eq_false, if_false, execute_bind,
      execute_modify, execute_pure] at h
    cases h
    rfl
  · simp [hc] at h

def Books.unregistered (b : Books) (addr : Nat) : Books :=
  match b.startAddrUffd.find addr with
  | none => b
  | some uffd =>
    let b' := { b with
      startAddrUffd := b.startAddrUffd.erase addr
      uffdStartAddr := b.uffdStartAddr.erase uffd
      prevAddr := b.prevAddr.erase uffd
      prevOp := b.prevOp.erase uffd }
    match b.addrTid.find addr with
    | none => b'
    | some tid =>
      { b' with
        addrTid := b.addrTid.erase tid
        handlerOf := fun u => if b.handlerOf u = some tid then none else b.handlerOf u }

def Books.cancelled (b : Books) (addr : Nat) : List Nat :=
  match b.startAddrUffd.find addr with
  | none => []
  | some _ => (b.addrTid.find addr).toList

lemma unregister_effect {addr : Nat} (h : s.unregister env addr = some s') :
    books s' = (books s).unregistered addr ∧
      cancels env (Uffdman.unregisterRegion Client.rmpPagefaultResovler addr) s =
        (books s).cancelled addr := by
  have hmapAt {K V : Type} (m : Globals → UnorderedMap K V) (k : K) (t : System) :
      cancels env (Client.mapAt m k) t = [] :=
    cancels_quiet ((onlyPerforms_mapAt m k).mono keepsBooks_resolverOp)
  cases hu : s.globals.startAddrUffdMap.find addr with
  | none =>
    have hc : ¬s.globals.startAddrUffdMap.Contains addr := by simp [UnorderedMap.Contains, hu]
    have hs : s = s' := by simpa [System.unregister, Uffdman.unregisterRegion, hc] using h
    subst hs
    have hb : (books s).startAddrUffd.find addr = none := hu
    simp [Uffdman.unregisterRegion, cancels_bind, hc, Books.unregistered, Books.cancelled, hb]
  | some u =>
    have hc : s.globals.startAddrUffdMap.Contains addr := by simp [UnorderedMap.Contains, hu]
    have hb : (books s).startAddrUffd.find addr = some u := hu
    simp only [System.unregister, Uffdman.unregisterRegion, execute_bind, execute_get,
      Option.bind_some, hc, if_true, execute_mapAt env s hu] at h
    simp only [Uffdman.unregisterRegion, cancels_bind, execute_get, cancels_get, Option.elim_some,
      hc, if_true, hmapAt, execute_mapAt env s hu, cancels_quiet (keepsBooks_invalidate u)]
    rcases hinv : s.execute env
        (Uffdman.invalidatePrevResolvedPage Client.rmpPagefaultResovler u) with _ | ⟨⟨⟩, t⟩
    · simp [hinv] at h
    · have hbooks : books t = books s := execute_books (keepsBooks_invalidate u) hinv
      have htid : t.globals.addrTidMap = s.globals.addrTidMap := congrArg Books.addrTid hbooks
      simp only [hinv, Option.bind_some, execute_modify] at h
      simp only [Option.elim_some, cancels_modify, execute_modify]
      cases ht : s.globals.addrTidMap.find addr with
      | none =>
        have htb : (books s).addrTid.find addr = none := ht
        have hct : ¬t.globals.addrTidMap.Contains addr := by simp [UnorderedMap.Contains, htid, ht]
        simp only [hct, if_false, execute_pure, Option.map_some, Option.some_inj] at h
        subst h
        rw [← hbooks] at hb htb ⊢
        simp only [Books.unregistered, Books.cancelled, hb, htb, hct, if_false, cancels_pure]
        exact ⟨rfl, rfl⟩
      | some tid =>
        have htb : (books s).addrTid.find addr = some tid := ht
        have hct : t.globals.addrTidMap.Contains addr := by simp [UnorderedMap.Contains, htid, ht]
        have htf : t.globals.addrTidMap.find addr = some tid := by rw [htid, ht]
        simp only [hct, if_true, execute_bind, cancels_bind] at h ⊢
        rw [execute_mapAt _ _ (by exact htf)] at h ⊢
        simp only [Option.bind_some, execute_modify, execute_pthreadCancel, ClientOp.exec,
          Option.map_some, Option.some_inj] at h
        subst h
        rw [← hbooks] at hb htb ⊢
        simp only [Books.unregistered, Books.cancelled, hb, htb, hmapAt, Option.elim_some,
          cancels_modify, execute_modify, cancels_pthreadCancel]
        exact ⟨rfl, rfl⟩

/-- The handler of `uffd` may have recorded something for its own region. -/
structure Books.Records (uffd : Int) (b b' : Books) : Prop where
  addrTid : b'.addrTid = b.addrTid
  startAddrUffd : b'.startAddrUffd = b.startAddrUffd
  uffdStartAddr : b'.uffdStartAddr = b.uffdStartAddr
  handlerOf : b'.handlerOf = b.handlerOf
  prevAddr : ∀ u, b'.prevAddr.Contains u → u = uffd ∨ b.prevAddr.Contains u
  prevOp : ∀ u, b'.prevOp.Contains u → u = uffd ∨ b.prevOp.Contains u

lemma Books.Records.refl (uffd : Int) (b : Books) : b.Records uffd b :=
  ⟨rfl, rfl, rfl, rfl, fun _ h => .inr h, fun _ h => .inr h⟩

lemma Books.Records.trans {uffd : Int} {b₁ b₂ b₃ : Books} (h : b₁.Records uffd b₂)
    (h' : b₂.Records uffd b₃) : b₁.Records uffd b₃ where
  addrTid := h'.addrTid.trans h.addrTid
  startAddrUffd := h'.startAddrUffd.trans h.startAddrUffd
  uffdStartAddr := h'.uffdStartAddr.trans h.uffdStartAddr
  handlerOf := h'.handlerOf.trans h.handlerOf
  prevAddr u hu := (h'.prevAddr u hu).elim .inl (h.prevAddr u)
  prevOp u hu := (h'.prevOp u hu).elim .inl (h.prevOp u)

/-- The operations of the handler thread of `uffd`. -/
def RecordsOp (uffd : Int) (op : ClientOp) : Prop :=
  ∀ env s r s', op.exec env s = some (r, s') → (books s).Records uffd (books s')

lemma recordsOp_of_keepsBooks (uffd : Int) (op : ClientOp) (h : KeepsBooks op) :
    RecordsOp uffd op := by
  intro env s r s' he
  rw [h.1 env s r s' he]
  exact Books.Records.refl uffd _

lemma keepsBooks_iteration (uffd : Int) (dst : Nat) (src : Buf) (site : UnlockSite) :
    KeepsBooks (.poll uffd) ∧ KeepsBooks (.readMsg uffd) ∧ KeepsBooks .lock ∧
      KeepsBooks (.unlock site) ∧ KeepsBooks (.uffdioCopy uffd dst src) := by
  refine ⟨⟨?_, by simp⟩, ⟨?_, by simp⟩, ⟨?_, by simp⟩, ⟨?_, by simp⟩, ⟨?_, by simp⟩⟩ <;>
    intro env s r s' he
  · simp only [ClientOp.exec] at he
    split at he
    · cases he
      rfl
    · cases he
  · simp only [ClientOp.exec] at he
    split at he <;> cases he <;> rfl
  · simp only [ClientOp.exec] at he
    split at he
    · cases he
    · cases he
      rfl
  · cases he
    rfl
  · simp only [ClientOp.exec] at he
    split at he
    · cases he
      rfl
    · split at he <;> cases he <;> rfl

lemma recordsOp_recordResolved (uffd : Int) (addr op : Nat) :
    (Uffdman.recordResolved uffd addr op).OnlyPerforms (RecordsOp uffd) := by
  refine .bind (onlyPerforms_call _ ?_) fun _ => onlyPerforms_call _ ?_
  · intro env s r s' he
    cases he
    refine ⟨rfl, rfl, rfl, rfl, ?_, fun _ h => .inr h⟩
    intro u hu
    by_cases hue : u = uffd
    · exact .inl hue
    · exact .inr (by simpa [books, UnorderedMap.Contains, hue] using hu)
  · intro env s r s' he
    cases he
    refine ⟨rfl, rfl, rfl, rfl, fun _ h => .inr h, ?_⟩
    intro u hu
    by_cases hue : u = uffd
    · exact .inl hue
    · exact .inr (by simpa [books, UnorderedMap.Contains, hue] using hu)

lemma recordsOp_iteration (uffd : Int) :
    (Uffdman.faultHandlerIteration Client.rmpPagefaultResovler uffd).OnlyPerforms
      (RecordsOp uffd) := by
  have hkeep {α : Type} {x : ClientM α} (hx : x.OnlyPerforms KeepsBooks) :
      x.OnlyPerforms (RecordsOp uffd) := hx.mono (recordsOp_of_keepsBooks uffd)
  have hcall (op : ClientOp) (hop : KeepsBooks op) : op.call.OnlyPerforms (RecordsOp uffd) :=
    hkeep (onlyPerforms_call op hop)
  have hget := hcall .get (keepsBooks_resolverOp _ trivial)
  obtain ⟨hpoll, hread, hlock, hunlock, -⟩ :=
    keepsBooks_iteration uffd 0 .staticPage .faultHandlerThread
  have hresolve (addr op : Nat) :
      (Uffdman.resolveFault Client.rmpPagefaultResovler uffd addr op).OnlyPerforms
        (RecordsOp uffd) := by
    refine .bind (hkeep (keepsBooks_invalidate uffd)) fun _ => .bind ?_ fun _ => ?_
    · unfold Uffdman.resolveRead
      split
      · exact hkeep (.bind ((onlyPerforms_mapAt _ _).mono keepsBooks_resolverOp) fun _ =>
          (onlyPerforms_rmpPagefaultResovler _ _ _ _).mono keepsBooks_resolverOp)
      · exact .pure _
    · refine .bind (hcall _ (keepsBooks_iteration uffd _ _ .faultHandlerThread).2.2.2.2) fun c => ?_
      split
      · exact .pure _
      · exact .bind (recordsOp_recordResolved uffd addr op) fun _ => .pure _
  refine .bind (hcall _ hpoll) fun polled => ?_
  split
  · exact .pure _
  refine .bind (hcall _ hread) fun nread => ?_
  split
  · exact .pure _
  split
  · exact .pure _
  refine .bind hget fun g => ?_
  split
  · exact .pure _
  split
  · exact .pure _
  refine .bind hget fun g => .bind (hcall _ hlock) fun _ => ?_
  exact .bind (hresolve _ _) fun goesOn => .bind (hcall _ hunlock) fun _ => .pure _

lemma iteration_effect {uffd : Int} {goesOn : Bool}
    (h : s.execute env (Uffdman.faultHandlerIteration Client.rmpPagefaultResovler uffd) =
      some (goesOn, s')) : (books s).Records uffd (books s') :=
  (recordsOp_iteration uffd).runPartial (ClientOp.exec env)
    (R := fun s t => (books s).Records uffd (books t)) (fun _ => Books.Records.refl uffd _)
    (fun _ _ _ h₁ h₂ => h₁.trans h₂) (fun _ hop s r t ht => hop env s r t ht) h

end Programs

/-! ### Sequences of calls -/

/-- A successful call of `uffdman_register_region`: the address, the descriptor it opened and the
thread it started. -/
structure Registration where
  addr : Nat
  uffd : Int
  tid : Nat

/-- The client process and the registrations so far. -/
structure Manager where
  sys : System
  history : List Registration

def Manager.init (mem : Nat → UInt8) : Manager := ⟨System.init mem, []⟩

def latestThread (history : List Registration) (addr : Nat) : Option Nat :=
  (history.reverse.find? (fun x => x.addr = addr)).map Registration.tid

inductive ManagerEvent
  | register (env : Env) (addr nPages : Nat)
  | fault (env : Env) (uffd : Int) (msg : UffdMsg)
  | unregister (env : Env) (addr : Nat)
  | other

/-- A successful registration with a new descriptor and a new thread, an iteration of a handler
thread that runs, on any message, a call of `uffdman_unregister_region`, or anything that leaves
the maps and the threads alone. A handler thread whose iteration returns `false` ends. -/
inductive Manager.Step (c : Manager) : ManagerEvent → Manager → Prop
  | register {env : Env} {addr nPages : Nat} {sys : System}
      (h : c.sys.execute env (Uffdman.registerRegion addr nPages) = some (0, sys))
      (hnew : ¬c.sys.globals.startAddrUffdMap.Contains addr)
      (huffd : ∀ x ∈ c.history, x.uffd ≠ env.userfaultfd)
      (htid : ∀ x ∈ c.history, x.tid ≠ env.pthreadCreate.2) :
      Step c (.register env addr nPages)
        ⟨sys, c.history ++ [⟨addr, env.userfaultfd, env.pthreadCreate.2⟩]⟩
  | fault {env : Env} {uffd : Int} {msg : UffdMsg} {goesOn : Bool} {sys : System}
      (hlive : c.sys.handlerOf uffd ≠ none)
      (h : System.execute env (Uffdman.faultHandlerIteration Client.rmpPagefaultResovler uffd)
        { c.sys with pending := Function.update c.sys.pending uffd (some msg) } =
        some (goesOn, sys)) :
      Step c (.fault env uffd msg) { c with
        sys := if goesOn then sys
          else { sys with handlerOf := Function.update sys.handlerOf uffd none } }
  | unregister {env : Env} {addr : Nat} {sys : System}
      (h : c.sys.unregister env addr = some sys) :
      Step c (.unregister env addr) { c with sys := sys }
  | other {sys : System} (h : books sys = books c.sys) : Step c .other { c with sys := sys }

/-- The five maps agree with each other and with the registrations. -/
structure Manager.Consistent (c : Manager) : Prop where
  inverse : (books c.sys).startAddrUffd.Inverse (books c.sys).uffdStartAddr
  sameKeys : ∀ a, (books c.sys).addrTid.Contains a ↔ (books c.sys).startAddrUffd.Contains a
  threads : ∀ a tid, (books c.sys).addrTid.find a = some tid → latestThread c.history a = some tid
  prevAddr : ∀ u, (books c.sys).prevAddr.Contains u → (books c.sys).uffdStartAddr.Contains u
  prevOp : ∀ u, (books c.sys).prevOp.Contains u → (books c.sys).uffdStartAddr.Contains u

/-- An unregistration removes the entries of its region from the five maps, and no others, and
cancels the thread of the region's latest registration, and no other. -/
def RemovesExactly (c : Manager) : ManagerEvent → Prop
  | .unregister env addr => ∀ sys, c.sys.unregister env addr = some sys →
    match (books c.sys).startAddrUffd.find addr with
    | none => books sys = books c.sys ∧
        cancels env (Uffdman.unregisterRegion Client.rmpPagefaultResovler addr) c.sys = []
    | some uffd =>
      (books sys).addrTid = (books c.sys).addrTid.erase addr ∧
        (books sys).startAddrUffd = (books c.sys).startAddrUffd.erase addr ∧
        (books sys).uffdStartAddr = (books c.sys).uffdStartAddr.erase uffd ∧
        (books sys).prevAddr = (books c.sys).prevAddr.erase uffd ∧
        (books sys).prevOp = (books c.sys).prevOp.erase uffd ∧
        ∃ tid, latestThread c.history addr = some tid ∧
          cancels env (Uffdman.unregisterRegion Client.rmpPagefaultResovler addr) c.sys = [tid]
  | _ => True

/-- The event does not unregister a registered region, or it does and the region's thread id is,
as a number, its start address. -/
def ErasesOwnKey (c : Manager) : ManagerEvent → Prop
  | .unregister _ addr => (books c.sys).startAddrUffd.Contains addr →
    latestThread c.history addr = some addr
  | _ => True

section Invariant

variable {c c' : Manager} {e : ManagerEvent}

lemma latestThread_snoc (history : List Registration) (x : Registration) (addr : Nat) :
    latestThread (history ++ [x]) addr =
      if x.addr = addr then some x.tid else latestThread history addr := by
  simp only [latestThread, List.reverse_append, List.reverse_singleton, List.singleton_append,
    List.find?_cons]
  by_cases hx : x.addr = addr <;> simp [hx]

/-- What holds between two events as long as every unregistration erases its own key. -/
structure Kept (c : Manager) : Prop where
  consistent : c.Consistent
  -- a handler thread that runs is the one recorded for its region
  live : ∀ u tid, (books c.sys).handlerOf u = some tid →
    ∃ a, (books c.sys).uffdStartAddr.find u = some a ∧ (books c.sys).addrTid.find a = some tid
  known : ∀ u, (books c.sys).uffdStartAddr.Contains u → ∃ x ∈ c.history, x.uffd = u

lemma init_kept (mem : Nat → UInt8) : Kept (Manager.init mem) where
  consistent :=
    { inverse := by simp [UnorderedMap.Inverse, books, Manager.init, System.init]
      sameKeys := by simp [UnorderedMap.Contains, books, Manager.init, System.init]
      threads := by simp [books, Manager.init, System.init]
      prevAddr := by simp [UnorderedMap.Contains, books, Manager.init, System.init]
      prevOp := by simp [UnorderedMap.Contains, books, Manager.init, System.init] }
  live := by simp [books, Manager.init, System.init]
  known := by simp [UnorderedMap.Contains, books, Manager.init, System.init]

lemma Kept.congr (h : Kept c) (hb : books c'.sys = books c.sys) (hh : c'.history = c.history) :
    Kept c' := by
  obtain ⟨⟨h1, h2, h3, h4, h5⟩, h6, h7⟩ := h
  rw [← hb] at h1 h2 h3 h4 h5 h6 h7
  rw [← hh] at h3 h7
  exact ⟨⟨h1, h2, h3, h4, h5⟩, h6, h7⟩

lemma Kept.register (h : Kept c) {addr : Nat} {uffd : Int} {tid : Nat} {sys : System}
    (hb : books sys = (books c.sys).registered addr uffd tid)
    (hnew : ¬(books c.sys).startAddrUffd.Contains addr) (huffd : ∀ x ∈ c.history, x.uffd ≠ uffd) :
    Kept ⟨sys, c.history ++ [⟨addr, uffd, tid⟩]⟩ := by
  have hc := h.consistent
  have hstart : (books c.sys).startAddrUffd.find addr = none := not_not.mp hnew
  have htid : (books c.sys).addrTid.find addr = none := not_not.mp (mt (hc.sameKeys addr).mp hnew)
  have hu : (books c.sys).uffdStartAddr.find uffd = none := by
    by_contra hne
    obtain ⟨x, hx, hxu⟩ := h.known uffd hne
    exact huffd x hx hxu
  have hkeys : ∀ u, (books c.sys).uffdStartAddr.Contains u →
      ((books c.sys).uffdStartAddr.insert uffd addr).Contains u :=
    fun u hcu => (UnorderedMap.contains_insert ..).mpr (.inr hcu)
  refine ⟨⟨?_, ?_, ?_, ?_, ?_⟩, ?_, ?_⟩ <;> dsimp only <;> rw [hb]
  · exact hc.inverse.insert hstart hu
  · intro a
    simp only [Books.registered, UnorderedMap.contains_insert, hc.sameKeys a]
  · intro a t ht
    simp only [Books.registered, UnorderedMap.find_insert, htid, Option.getD_none] at ht
    rw [latestThread_snoc]
    by_cases ha : a = addr
    · simpa [ha] using ht
    · simp only [ha, if_false] at ht
      simpa [Ne.symm ha] using hc.threads a t ht
  · exact fun u hp => hkeys u (hc.prevAddr u hp)
  · exact fun u hp => hkeys u (hc.prevOp u hp)
  · intro u t ht
    simp only [Books.registered] at ht ⊢
    by_cases hue : u = uffd
    · subst hue
      refine ⟨addr, by simp [UnorderedMap.find_insert, hu], ?_⟩
      simpa [UnorderedMap.find_insert, htid] using ht
    · rw [Function.update_of_ne hue] at ht
      obtain ⟨a, hua, hat⟩ := h.live u t ht
      have ha : a ≠ addr := by
        rintro rfl
        simp [htid] at hat
      exact ⟨a, by simpa [UnorderedMap.find_insert, hue] using hua,
        by simpa [UnorderedMap.find_insert, ha] using hat⟩
  · intro u hcu
    rcases (UnorderedMap.contains_insert ..).mp hcu with rfl | hold
    · exact ⟨⟨addr, u, tid⟩, by simp, rfl⟩
    · obtain ⟨x, hx, hxu⟩ := h.known u hold
      exact ⟨x, List.mem_append_left _ hx, hxu⟩

lemma Kept.fault (h : Kept c) {uffd : Int} {sys : System}
    (hr : (books c.sys).Records uffd (books sys)) (hlive : c.sys.handlerOf uffd ≠ none) :
    Kept { c with sys := sys } := by
  have hc := h.consistent
  obtain ⟨tid, htid⟩ := Option.ne_none_iff_exists'.mp hlive
  obtain ⟨a, ha, -⟩ := h.live uffd tid htid
  have hown : (books c.sys).uffdStartAddr.Contains uffd := by simp [UnorderedMap.Contains, ha]
  refine ⟨⟨?_, ?_, ?_, ?_, ?_⟩, ?_, ?_⟩
  · rw [hr.startAddrUffd, hr.uffdStartAddr]
    exact hc.inverse
  · rw [hr.addrTid, hr.startAddrUffd]
    exact hc.sameKeys
  · rw [hr.addrTid]
    exact hc.threads
  · rw [hr.uffdStartAddr]
    intro u hu
    rcases hr.prevAddr u hu with rfl | hu
    · exact hown
    · exact hc.prevAddr u hu
  · rw [hr.uffdStartAddr]
    intro u hu
    rcases hr.prevOp u hu with rfl | hu
    · exact hown
    · exact hc.prevOp u hu
  · rw [hr.handlerOf, hr.uffdStartAddr, hr.addrTid]
    exact h.live
  · rw [hr.uffdStartAddr]
    exact h.known

lemma Kept.ends (h : Kept c) (uffd : Int) :
    Kept { c with sys := { c.sys with handlerOf := Function.update c.sys.handlerOf uffd none } } := by
  obtain ⟨⟨h1, h2, h3, h4, h5⟩, h6, h7⟩ := h
  refine ⟨⟨h1, h2, h3, h4, h5⟩, ?_, h7⟩
  intro u tid ht
  apply h6 u tid
  by_cases hu : u = uffd
  · simp [books, hu] at ht
  · simpa [books, hu] using ht

lemma Manager.Consistent.thread (h : c.Consistent) {addr : Nat} {uffd : Int}
    (hu : (books c.sys).startAddrUffd.find addr = some uffd) :
    ∃ tid, (books c.sys).addrTid.find addr = some tid ∧
      latestThread c.history addr = some tid := by
  have hk : (books c.sys).addrTid.Contains addr :=
    (h.sameKeys addr).mpr (by simp [UnorderedMap.Contains, hu])
  obtain ⟨tid, ht⟩ := Option.ne_none_iff_exists'.mp hk
  exact ⟨tid, ht, h.threads addr tid ht⟩

/-- Where the maps are consistent, an unregistration removes what it should exactly when it
erases its own key from `addr_tid_map`. -/
lemma Manager.Consistent.removesExactly_iff (h : c.Consistent) {env : Env} {addr : Nat} {sys : System}
    (hs : c.sys.unregister env addr = some sys) :
    RemovesExactly c (.unregister env addr) ↔ ErasesOwnKey c (.unregister env addr) := by
  obtain ⟨hb, hcancel⟩ := unregister_effect hs
  cases hu : (books c.sys).startAddrUffd.find addr with
  | none =>
    have hleft : RemovesExactly c (.unregister env addr) := by
      intro sys' hs'
      obtain rfl := Option.some.inj (hs.symm.trans hs')
      rw [hu]
      simp [hb, hcancel, Books.unregistered, Books.cancelled, hu]
    have hright : ErasesOwnKey c (.unregister env addr) := fun hc => absurd hu hc
    exact iff_of_true hleft hright
  | some uffd =>
    obtain ⟨tid, ht, hlatest⟩ := h.thread hu
    have hcontains : (books c.sys).startAddrUffd.Contains addr := by
      simp [UnorderedMap.Contains, hu]
    simp only [Books.unregistered, Books.cancelled, hu, ht, Option.toList_some] at hb hcancel
    constructor
    · intro hex _
      have hexact := hex sys hs
      simp only [hu] at hexact
      have herase := hexact.1
      rw [hb] at herase
      -- the entry of `addr` is gone, so that the key erased was `addr`
      have hfind := congrArg (fun m => UnorderedMap.find m addr) herase
      simp only [UnorderedMap.find_erase, if_true, ht] at hfind
      have haddr : addr = tid := by
        by_contra hne
        simp [hne] at hfind
      rw [hlatest, haddr]
    · intro hown sys' hs'
      obtain rfl := Option.some.inj (hs.symm.trans hs')
      obtain rfl : tid = addr := Option.some.inj (hlatest.symm.trans (hown hcontains))
      simp only [hu]
      rw [hb]
      exact ⟨rfl, rfl, rfl, rfl, rfl, tid, hlatest, hcancel⟩

lemma Kept.unregister (h : Kept c) {env : Env} {addr : Nat} {sys : System}
    (hs : c.sys.unregister env addr = some sys) (hown : ErasesOwnKey c (.unregister env addr)) :
    Kept { c with sys := sys } := by
  obtain ⟨hb, -⟩ := unregister_effect hs
  have hc := h.consistent
  cases hu : (books c.sys).startAddrUffd.find addr with
  | none =>
    rw [Books.unregistered, hu] at hb
    exact h.congr hb rfl
  | some uffd =>
    obtain ⟨tid, ht, hlatest⟩ := hc.thread hu
    obtain rfl : tid = addr := Option.some.inj
      (hlatest.symm.trans (hown (by simp [UnorderedMap.Contains, hu])))
    simp only [Books.unregistered, hu, ht] at hb
    have hprev : ∀ (m : UnorderedMap Int Nat), (∀ u, m.Contains u →
        (books c.sys).uffdStartAddr.Contains u) → ∀ u, (m.erase uffd).Contains u →
        ((books c.sys).uffdStartAddr.erase uffd).Contains u := by
      intro m hm u hcu
      rw [UnorderedMap.contains_erase] at hcu ⊢
      exact ⟨hcu.1, hm u hcu.2⟩
    refine ⟨⟨?_, ?_, ?_, ?_, ?_⟩, ?_, ?_⟩ <;> dsimp only <;> rw [hb]
    · exact hc.inverse.erase hu
    · intro a
      rw [UnorderedMap.contains_erase, UnorderedMap.contains_erase, hc.sameKeys a]
    · intro a t hat
      exact hc.threads a t ((UnorderedMap.find_erase_eq_some ..).mp hat).2
    · exact hprev _ hc.prevAddr
    · exact hprev _ hc.prevOp
    · -- the cancelled thread was the handler of `uffd`, and every other one keeps its entries
      intro u t hut
      dsimp only at hut ⊢
      split at hut
      · cases hut
      · next hne =>
        obtain ⟨a, hua, hat⟩ := h.live u t hut
        have ha : a ≠ tid := by
          rintro rfl
          rw [ht] at hat
          exact hne (hat ▸ hut)
        have hue : u ≠ uffd := by
          rintro rfl
          rw [(hc.inverse tid u).mp hu] at hua
          exact ha (Option.some.inj hua).symm
        exact ⟨a, (UnorderedMap.find_erase_eq_some ..).mpr ⟨hue, hua⟩,
          (UnorderedMap.find_erase_eq_some ..).mpr ⟨ha, hat⟩⟩
    · intro u hcu
      exact h.known u ((UnorderedMap.contains_erase ..).mp hcu).2

/-- Every event that erases no foreign key keeps the invariant. -/
lemma step_kept (h : Kept c) (hown : ErasesOwnKey c e) (hs : Manager.Step c e c') : Kept c' := by
  cases hs with
  | register hreg hnew huffd htid => exact h.register (register_effect hreg) hnew huffd
  | @fault env uffd msg goesOn sys hlive hf =>
    have hr := iteration_effect hf
    have hkept := h.fault hr hlive
    cases goesOn with
    | true => exact hkept
    | false => exact hkept.ends uffd
  | unregister hun => exact h.unregister hun hown
  | other hb => exact h.congr hb rfl

end Invariant

/-- In every run, the maps are consistent in all states and every unregistration removes and
cancels exactly what it should, if and only if no region is unregistered whose thread id differs,
as a number, from its start address. -/
theorem bookkeeping_iff {mem : Nat → UInt8} {tr : List (Manager × ManagerEvent)} {c : Manager}
    (h : Run Manager.Step (Manager.init mem) tr c) :
    ((∀ x ∈ tr, x.1.Consistent ∧ RemovesExactly x.1 x.2) ∧ c.Consistent) ↔
      ∀ x ∈ tr, ErasesOwnKey x.1 x.2 := by
  have hkeep : ∀ c e c', Kept c → ErasesOwnKey c e → Manager.Step c e c' → Kept c' :=
    fun c e c' hk hown hs => step_kept hk hown hs
  have hiff : ∀ c e c', c.Consistent → Manager.Step c e c' →
      (RemovesExactly c e ↔ ErasesOwnKey c e) := by
    intro c e c' hc hs
    cases hs with
    | unregister hun => exact hc.removesExactly_iff hun
    | register => exact Iff.rfl
    | fault => exact Iff.rfl
    | other => exact Iff.rfl
  constructor
  · rintro ⟨hall, -⟩ x hx
    obtain ⟨-, c', -, -, hs⟩ := h.reached x hx
    exact (hiff x.1 x.2 c' (hall x hx).1 hs).mp (hall x hx).2
  · intro hown
    have hbefore := h.invariant_before hkeep (init_kept mem) hown
    refine ⟨fun x hx => ⟨(hbefore x hx).consistent, ?_⟩,
      (h.invariant hkeep (init_kept mem) hown).consistent⟩
    obtain ⟨-, c', -, -, hs⟩ := h.reached x hx
    exact (hiff x.1 x.2 c' (hbefore x hx).consistent hs).mpr (hown x hx)

/-- The system after `uffdman_register_region` and after `uffdman_unregister_region`. -/
def afterRegister (env : Env) (addr nPages : Nat) (s : System) : System :=
  ((s.execute env (Uffdman.registerRegion addr nPages)).map Prod.snd).getD s

def afterUnregister (env : Env) (addr : Nat) (s : System) : System := (s.unregister env addr).getD s

lemma register_afterRegister (env : Env) (addr nPages : Nat) {s : System}
    (h : (s.execute env (Uffdman.registerRegion addr nPages)).map Prod.fst = some 0) :
    s.execute env (Uffdman.registerRegion addr nPages) =
      some (0, afterRegister env addr nPages s) := by
  obtain ⟨⟨out, t⟩, ht, rfl⟩ := Option.map_eq_some_iff.mp h
  simp [afterRegister, ht]

lemma unregister_afterUnregister (env : Env) (addr : Nat) {s : System}
    (h : (s.unregister env addr).isSome = true) :
    s.unregister env addr = some (afterUnregister env addr s) := by
  obtain ⟨t, ht⟩ := Option.isSome_iff_exists.mp h
  simp [afterUnregister, ht]

def afterFault (env : Env) (uffd : Int) (msg : UffdMsg) (s : System) : System :=
  ((System.execute env (Uffdman.faultHandlerIteration Client.rmpPagefaultResovler uffd)
    { s with pending := Function.update s.pending uffd (some msg) }).map Prod.snd).getD s

lemma fault_afterFault (env : Env) (uffd : Int) (msg : UffdMsg) {c : Manager}
    (hlive : (c.sys.handlerOf uffd).isSome = true)
    (h : (System.execute env (Uffdman.faultHandlerIteration Client.rmpPagefaultResovler uffd)
      { c.sys with pending := Function.update c.sys.pending uffd (some msg) }).map Prod.fst =
        some true) :
    Manager.Step c (.fault env uffd msg) { c with sys := afterFault env uffd msg c.sys } := by
  obtain ⟨⟨goesOn, t⟩, ht, rfl⟩ := Option.map_eq_some_iff.mp h
  have hstep := Manager.Step.fault (Option.isSome_iff_ne_none.mp hlive) ht
  rw [if_pos rfl] at hstep
  have hafter : afterFault env uffd msg c.sys = t := by simp [afterFault, ht]
  rwa [hafter]

abbrev secondEnv : Env := grantingEnv 4096 4096 4 2

lemma first_registration : Run Manager.Step (Manager.init fun _ => 0)
    [(Manager.init fun _ => 0, .register firstEnv 4096 2)]
    ⟨afterRegister firstEnv 4096 2 (System.init fun _ => 0), [⟨4096, 3, 1⟩]⟩ :=
  Run.single (.register (register_afterRegister firstEnv 4096 2 (by decide +kernel)) (by decide)
    (by simp [Manager.init]) (by simp [Manager.init]))

/-- The client holds handles of two regions, and the static page is mapped. -/
def withHandles : System :=
  { System.init (fun _ => 0) with
    globals.addrHndlMap := (UnorderedMap.empty.set 4096 0).set 16384 1
    page := some zeroPage }

/-- The thread of the second region has its address as its id. -/
abbrev twinEnv : Env := grantingEnv 4096 4096 4 16384

def laterEnv : Env := grantingEnv 4096 4096 5 2

/-- Two regions are registered and accessed; the second one, whose thread id is its address, is
unregistered and registered again. -/
theorem bookkeeping_of_twin :
    ∃ tr c, Run Manager.Step (Manager.init fun _ => 0) tr c ∧ tr.length = 7 ∧ c.Consistent ∧
      latestThread c.history 4096 = some 1 ∧ latestThread c.history 16384 = some 2 := by
  have h₀ : Run Manager.Step (Manager.init fun _ => 0) _ ⟨withHandles, []⟩ :=
    Run.single (.other rfl)
  have h₁ := h₀.snoc (.register (register_afterRegister firstEnv 4096 2 (by decide +kernel))
    (by decide +kernel) (by simp) (by simp))
  have h₂ := h₁.snoc (.register (register_afterRegister twinEnv 16384 1 (by decide +kernel))
    (by decide +kernel) (by simp [grantingEnv]) (by simp [grantingEnv]))
  have h₃ := h₂.snoc (fault_afterFault firstEnv 3 ⟨.pagefault, 0, 4096⟩ (by decide +kernel)
    (by decide +kernel))
  have h₄ := h₃.snoc (fault_afterFault twinEnv 4 ⟨.pagefault, 1, 16384⟩ (by decide +kernel)
    (by decide +kernel))
  have h₅ := h₄.snoc (.unregister (unregister_afterUnregister twinEnv 16384 (by decide +kernel)))
  have h₆ := h₅.snoc (.register (register_afterRegister laterEnv 16384 1 (by decide +kernel))
    (by decide +kernel) (by simp [grantingEnv, laterEnv]) (by simp [grantingEnv, laterEnv]))
  refine ⟨_, _, h₆, rfl, ((bookkeeping_iff h₆).mpr ?_).2, rfl, rfl⟩
  simp only [forall_mem_snoc, List.forall_mem_singleton]
  exact ⟨⟨⟨⟨⟨⟨trivial, trivial⟩, trivial⟩, trivial⟩, trivial⟩, fun _ => rfl⟩, trivial⟩

/-- A region that is registered, unregistered and registered again at the same address keeps the
thread of its first registration. -/
theorem bookkeeping_registered_again :
    ∃ tr c, Run Manager.Step (Manager.init fun _ => 0) tr c ∧
      ¬((∀ x ∈ tr, x.1.Consistent ∧ RemovesExactly x.1 x.2) ∧ c.Consistent) := by
  have hun := first_registration.snoc
    (.unregister (unregister_afterUnregister firstEnv 4096 (by decide +kernel)))
  have hagain := hun.snoc (.register (register_afterRegister secondEnv 4096 2 (by decide +kernel))
    (by decide +kernel) (by simp [grantingEnv]) (by simp [grantingEnv]))
  refine ⟨_, _, hagain, ?_⟩
  rintro ⟨-, hc⟩
  have hfirst : (books (afterRegister secondEnv 4096 2 (afterUnregister firstEnv 4096
      (afterRegister firstEnv 4096 2 (System.init fun _ => 0))))).addrTid.find 4096 = some 1 := by
    decide +kernel
  have hlatest := hc.threads 4096 1 hfirst
  simp [latestThread, grantingEnv] at hlatest

end RemoteMemoryPool.Proofs
