import RemoteMemoryPool.Lib.Mutex
import RemoteMemoryPool.Proofs.ThreadPhases

/-!
# Mutual exclusion by `fault_handler_cr`

The main thread calls `malloc` of the preload library, any number of fault handlers resolve
page faults. Every thread follows one automaton, in which the release at the end of the scope
of the `lock_guard` of `malloc` is a release outside: the explicit `unlock` came before it.
Without such a release the mutex excludes, and each of them breaks the exclusion.
-/

namespace RemoteMemoryPool.Proofs

open Interaction Transition Locking

def lockStep {ι : Type} : ProcessEvent ι → Option (ι × LockStep)
  | .act ⟨i, .lock, _⟩ => some (i, .acquire)
  | .act ⟨i, .unlock _, _⟩ => some (i, .release)
  | _ => none

def lockSteps {ι : Type} (h : History ι) : List (ι × LockStep) := h.filterMap (fun x => lockStep x.2)

def unlockSite {ι : Type} : ProcessEvent ι → Option UnlockSite
  | .act ⟨_, .unlock site, _⟩ => some site
  | _ => none

/-- The event is the release at the end of the scope of `guard` in `malloc`. -/
def MallocScopeExit {ι : Type} (e : ProcessEvent ι) : Prop := unlockSite e = some .mallocGuard

instance {ι : Type} (e : ProcessEvent ι) : Decidable (MallocScopeExit e) :=
  inferInstanceAs (Decidable (unlockSite e = some .mallocGuard))

/-- Whether a thread is between its lock and its unlock, moved by its operations. -/
def lockPhase (held : Bool) : ClientOp → Option Bool
  | .lock => if held then none else some true
  | .unlock .mallocGuard => if held then none else some false
  | .unlock _ => if held then some false else none
  | _ => some held

def LockPhase (held : Bool) (op : ClientOp) (_ : op.Res) (held' : Bool) : Prop :=
  lockPhase held op = some held'

lemma neutral_lockPhase : Neutral LockPhase := by
  intro held op r held' hop
  have hsame : lockPhase held op = some held := by
    cases op <;> first | rfl | exact hop.elim
  rw [LockPhase, hsame, Option.some.injEq]
  exact eq_comm

lemma exchanges_lockPhase (held : Bool) : Exchanges LockPhase held :=
  fun _ => ⟨held, rfl, fun _ => rfl⟩

lemma brackets_lockPhase : Brackets LockPhase false true where
  neutral := neutral_lockPhase
  lock := rfl
  unlock site hsite := by
    cases site with
    | mallocGuard => exact (hsite rfl).elim
    | _ => rfl
  scopeExit := rfl
  outside := requests_of_exchanges neutral_lockPhase (exchanges_lockPhase false)
  inside := requests_of_exchanges neutral_lockPhase (exchanges_lockPhase true)

lemma keeps_mallocs (sizes : List Nat) : (mallocs sizes).Keeps LockPhase false := by
  induction sizes with
  | nil => rfl
  | cons size sizes ih =>
    simp only [Program.Keeps, mallocs, Program.follows_bind]
    exact (brackets_lockPhase.malloc size).follows (fun _ => ih)

lemma keeps_preloadThreads {κ : Type} (sizes : List Nat) (uffd : κ → Int) (n : κ → Nat)
    (i : ThreadName κ) : (preloadThreads sizes uffd n i).Keeps LockPhase false := by
  cases i with
  | main => exact keeps_mallocs sizes
  | handler k => exact brackets_lockPhase.faultHandlerThread (uffd k) (n k)

section Runs

variable {ι : Type}

lemma lockSteps_snoc (h : History ι) (x : Process ι × ProcessEvent ι) :
    lockSteps (h ++ [x]) = lockSteps h ++ (lockStep x.2).toList := by
  rw [lockSteps, List.filterMap_append]
  cases hx : lockStep x.2 with
  | none => simp [lockSteps, hx]
  | some y => simp [lockSteps, hx]

lemma lockStep_cases (e : ProcessEvent ι) :
    (lockStep e = none ∧ ¬MallocScopeExit e) ∨ (∃ i, e = .act ⟨i, .lock, ()⟩) ∨
      ∃ i site, e = .act ⟨i, .unlock site, ()⟩ := by
  cases e with
  | serve os => exact .inl ⟨rfl, fun h => by cases h⟩
  | act a =>
    obtain ⟨i, op, r⟩ := a
    cases op with
    | lock => exact .inr (.inl ⟨i, rfl⟩)
    | unlock site => exact .inr (.inr ⟨i, site, rfl⟩)
    | _ => exact .inl ⟨rfl, fun h => by cases h⟩

lemma phase_of_lockStep_none {a : Action ι ClientOp.Res} (h : lockStep (.act a) = none)
    (held : Bool) : lockPhase held a.op = some held := by
  obtain ⟨i, op, r⟩ := a
  cases op with
  | lock => cases h
  | unlock site => cases h
  | _ => rfl

lemma locked_of_lockStep_none {i : ι} {op : ClientOp} {r : op.Res} {t : Nat} {s s' : Shared}
    (h : lockStep (.act ⟨i, op, r⟩ : ProcessEvent ι) = none) (heff : op.Effect t s r s') :
    s'.locked = s.locked := by
  cases op with
  | lock => cases h
  | unlock site => cases h
  | get => rw [heff.2]
  | pthreadSelf => rw [heff.2]
  | readMsg uffd =>
    obtain ⟨msg, rfl⟩ := heff
    rfl
  | recv =>
    obtain ⟨reply, rest, -, -, rfl⟩ := heff
    rfl
  | _ => rw [heff]

lemma phase_lock {held held' : Bool} (h : lockPhase held .lock = some held') :
    held = false ∧ held' = true := by
  cases held <;> simp_all [lockPhase]

lemma phase_unlock {site : UnlockSite} {held held' : Bool}
    (h : lockPhase held (.unlock site) = some held') :
    held' = false ∧ (held = true ↔ site ≠ .mallocGuard) := by
  cases site <;> cases held <;> simp_all [lockPhase]

variable [DecidableEq ι] {tid : ι → Nat}

/-- The automaton's state of every thread is whether it is inside, and the flag is set while
the mutex is held. -/
structure Phased (h : History ι) (c : Process ι) : Prop where
  follows : ∀ i, (c.threads i).Follows LockPhase (inside i (lockSteps h)) (fun _ _ => True)
  locked : c.state.locked = (holder (lockSteps h)).isSome

lemma phased_of_lockStep_none {h : History ι} {c c' : Process ι} {e : ProcessEvent ι}
    (hI : Phased h c) (hs : Process.Step tid c e c') (hnone : lockStep e = none) :
    Phased (h ++ [(c, e)]) c' := by
  have hsteps : lockSteps (h ++ [(c, e)]) = lockSteps h := by simp [lockSteps_snoc, hnone]
  cases e with
  | serve os =>
    obtain ⟨hthreads, request, rest, -, -, hstate⟩ := hs
    constructor
    · rw [hthreads, hsteps]
      exact hI.follows
    · rw [hstate, hsteps]
      exact hI.locked
  | act a =>
    obtain ⟨i, op, r⟩ := a
    obtain ⟨held, hphase, heffect, hfollows⟩ := act_follows hs hI.follows
    have hheld : inside i (lockSteps h) = held := by
      simpa [LockPhase, phase_of_lockStep_none hnone] using hphase
    constructor
    · intro j
      rw [hsteps]
      have hj := hfollows j
      by_cases hij : i = j
      · subst hij
        simpa [hheld] using hj
      · simpa [hij] using hj
    · rw [locked_of_lockStep_none hnone heffect, hsteps]
      exact hI.locked

/-- The mutex operations of a run wait for the mutex, and every release is by a thread inside
exactly if none is at the end of the scope in `malloc`. -/
lemma lockSteps_run {c c' : Process ι} {tr : History ι} (hr : Run (Process.Step tid) c tr c')
    (hI : Phased [] c) :
    Phased tr c' ∧ Waits (lockSteps tr) ∧
      ((∀ h x, h ++ [x] <+: lockSteps tr → x.2 = .release → inside x.1 h = true) ↔
        ∀ x ∈ tr, ¬MallocScopeExit x.2) := by
  induction hr with
  | nil => simp [hI, lockSteps, Waits]
  | @snoc t u tr e hr hs ih =>
    obtain ⟨hphased, hwaits, hiff⟩ := ih
    have hlast : (∀ x ∈ tr ++ [(t, e)], ¬MallocScopeExit x.2) ↔
        (∀ x ∈ tr, ¬MallocScopeExit x.2) ∧ ¬MallocScopeExit e := forall_mem_snoc
    rw [hlast, ← hiff]
    rcases lockStep_cases e with ⟨hnone, hexit⟩ | ⟨i, rfl⟩ | ⟨i, site, rfl⟩
    · have hsteps : lockSteps (tr ++ [(t, e)]) = lockSteps tr := by simp [lockSteps_snoc, hnone]
      refine ⟨phased_of_lockStep_none hphased hs hnone, ?_, ?_⟩
      · rwa [hsteps]
      · rw [hsteps]
        exact ⟨fun h => ⟨h, hexit⟩, fun h => h.1⟩
    · have hsteps : lockSteps (tr ++ [(t, .act ⟨i, .lock, ()⟩)]) =
          lockSteps tr ++ [(i, .acquire)] := lockSteps_snoc tr _
      obtain ⟨held, hphase, ⟨hfree, hstate⟩, hfollows⟩ := act_follows hs hphased.follows
      obtain ⟨-, rfl⟩ := phase_lock hphase
      refine ⟨⟨fun j => ?_, ?_⟩, ?_, ?_⟩
      · rw [hsteps, inside_snoc]
        simpa using hfollows j
      · rw [hsteps, hstate, holder_acquire]
        rfl
      · rw [hsteps]
        refine forall_prefix_snoc.mpr ⟨hwaits, fun _ => ?_⟩
        have hnone := hphased.locked.symm.trans hfree
        simpa using hnone
      · rw [hsteps, forall_prefix_snoc]
        simp [MallocScopeExit, unlockSite]
    · have hsteps : lockSteps (tr ++ [(t, .act ⟨i, .unlock site, ()⟩)]) =
          lockSteps tr ++ [(i, .release)] := lockSteps_snoc tr _
      obtain ⟨held, hphase, hstate, hfollows⟩ := act_follows hs hphased.follows
      obtain ⟨rfl, hinside⟩ := phase_unlock hphase
      refine ⟨⟨fun j => ?_, ?_⟩, ?_, ?_⟩
      · rw [hsteps, inside_snoc]
        simpa using hfollows j
      · rw [hsteps, hstate, holder_release]
        rfl
      · rw [hsteps]
        exact forall_prefix_snoc.mpr ⟨hwaits, fun h => by cases h⟩
      · rw [hsteps, forall_prefix_snoc]
        simp [MallocScopeExit, unlockSite, hinside]

/-- Over every run of the main thread's calls of `malloc` and any number of fault handlers:
every unlock of `fault_handler_cr` is by the thread that holds it, and at most one thread at a
time is between its lock and its unlock, exactly if no call of `malloc` leaves the scope of
its `lock_guard`. -/
theorem exclusion_iff {κ : Type} [DecidableEq κ] (tid : ThreadName κ → Nat) (sizes : List Nat)
    (uffd : κ → Int) (n : κ → Nat) (s : Shared) (hfree : s.locked = false)
    {tr : History (ThreadName κ)} {c : Process (ThreadName κ)}
    (hr : Run (Process.Step tid) ⟨preloadThreads sizes uffd n, s⟩ tr c) :
    MutualExclusion (lockSteps tr) ↔ ∀ x ∈ tr, ¬MallocScopeExit x.2 := by
  have hI : Phased [] (⟨preloadThreads sizes uffd n, s⟩ : Process (ThreadName κ)) := by
    constructor
    · intro i
      exact (keeps_preloadThreads sizes uffd n i).follows (fun _ => trivial)
    · exact hfree
  obtain ⟨-, hwaits, hiff⟩ := lockSteps_run hr hI
  rw [mutualExclusion_iff hwaits, hiff]

end Runs

section Malloc

/-- Three calls of `malloc`, with the handlers of the first two regions. -/
def threeMallocs : Process (ThreadName Bool) :=
  ⟨preloadThreads [1, 1, 1] (fun k => if k then 2 else 1) (fun _ => 1), Shared.fresh⟩

/-- The main thread allocates the first region up to its explicit unlock, and then the first
handler resolves a fault. -/
def faultAfterUnlock : List (Option (ThreadName Bool)) :=
  List.replicate 27 (some .main) ++ [none] ++ List.replicate 11 (some .main) ++
    List.replicate 14 (some (.handler false)) ++ [none] ++ List.replicate 6 (some (.handler false))

/-- The main thread allocates two regions and a third one up to its explicit unlock. The first
handler locks, the main thread leaves the scope of `guard`, and the second handler locks. -/
def scopeExitWhileHeld : List (Option (ThreadName Bool)) :=
  List.replicate 27 (some .main) ++ [none] ++ List.replicate 25 (some .main) ++ [none] ++
    List.replicate 25 (some .main) ++ [none] ++ List.replicate 12 (some .main) ++
    List.replicate 7 (some (.handler false)) ++ [some .main] ++
    List.replicate 7 (some (.handler true))

theorem exclusion_without_scope_exit :
    ∃ tr c, Run (Process.Step (fun _ => 7)) threeMallocs tr c ∧ (∀ x ∈ tr, ¬MallocScopeExit x.2) ∧
      (lockSteps tr).length = 6 ∧ MutualExclusion (lockSteps tr) := by
  have hsome : ((threeMallocs.execute (fun _ => 7) faultAfterUnlock).map (fun x =>
      (x.1.all (fun y => decide (¬MallocScopeExit y.2)), (lockSteps x.1).length))) =
        some (true, 6) := by
    decide +kernel
  obtain ⟨⟨tr, c⟩, hexec, hx⟩ := Option.map_eq_some_iff.mp hsome
  obtain ⟨hall, hlen⟩ := Prod.mk.inj hx
  have hno : ∀ x ∈ tr, ¬MallocScopeExit x.2 := by simpa using hall
  have hrun := run_of_execute hexec
  exact ⟨tr, c, hrun, hno, hlen, (exclusion_iff _ _ _ _ _ rfl hrun).mpr hno⟩

theorem scope_exit_lets_two_handlers_in :
    ∃ tr c, Run (Process.Step (fun _ => 7)) threeMallocs tr c ∧
      inside (.handler false) (lockSteps tr) = true ∧ inside (.handler true) (lockSteps tr) = true ∧
        ¬MutualExclusion (lockSteps tr) := by
  have hsome : ((threeMallocs.execute (fun _ => 7) scopeExitWhileHeld).map (fun x =>
      (inside (.handler false) (lockSteps x.1), inside (.handler true) (lockSteps x.1)))) =
        some (true, true) := by
    decide +kernel
  obtain ⟨⟨tr, c⟩, hexec, hx⟩ := Option.map_eq_some_iff.mp hsome
  obtain ⟨hfirst, hsecond⟩ := Prod.mk.inj hx
  refine ⟨tr, c, run_of_execute hexec, hfirst, hsecond, ?_⟩
  intro hm
  have heq := hm.at_most_one _ List.prefix_rfl _ _ hfirst hsecond
  cases heq

end Malloc

end RemoteMemoryPool.Proofs
