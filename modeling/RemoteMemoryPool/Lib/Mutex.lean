import RemoteMemoryPool.Lib.Runs
import Mathlib.Data.List.Induction

/-!
# Mutual exclusion from a lock flag

Histories of the acquisitions and releases of one lock, read without any assumption on who
releases it: a release by any thread opens the lock. If every acquisition waits for the lock
to be free, the lock excludes exactly when every thread releases it only between its own
acquisition and its own release.
-/

namespace Locking

open Transition

inductive LockStep
  | acquire
  | release
  deriving DecidableEq

variable {ι : Type}

/-- The thread that acquired the lock, until anyone releases it. -/
def holder (h : List (ι × LockStep)) : Option ι :=
  h.foldl (fun _ x => match x.2 with
    | .acquire => some x.1
    | .release => none) none

/-- The thread has acquired the lock and not released it since. -/
def inside [DecidableEq ι] (i : ι) (h : List (ι × LockStep)) : Bool :=
  h.foldl (fun b x => if x.1 = i then decide (x.2 = .acquire) else b) false

/-- Every acquisition found the lock free. -/
def Waits (h : List (ι × LockStep)) : Prop :=
  ∀ h' x, h' ++ [x] <+: h → x.2 = .acquire → holder h' = none

/-- Every release is by the thread that holds the lock, and at no time are two threads
between their acquisition and their release. -/
structure MutualExclusion [DecidableEq ι] (h : List (ι × LockStep)) : Prop where
  released_by_holder : ∀ h' x, h' ++ [x] <+: h → x.2 = .release → holder h' = some x.1
  at_most_one : ∀ h', h' <+: h → ∀ i j, inside i h' = true → inside j h' = true → i = j

@[simp] lemma holder_nil : holder ([] : List (ι × LockStep)) = none := rfl

@[simp] lemma holder_acquire (h : List (ι × LockStep)) (i : ι) :
    holder (h ++ [(i, .acquire)]) = some i := by
  simp [holder]

@[simp] lemma holder_release (h : List (ι × LockStep)) (i : ι) :
    holder (h ++ [(i, .release)]) = none := by
  simp [holder]

variable [DecidableEq ι]

@[simp] lemma inside_nil (i : ι) : inside i [] = false := rfl

@[simp] lemma inside_snoc (i : ι) (h : List (ι × LockStep)) (x : ι × LockStep) :
    inside i (h ++ [x]) = if x.1 = i then decide (x.2 = .acquire) else inside i h := by
  simp [inside]

/-- While all releases are by the holder, the threads inside are the holder. -/
lemma inside_iff_holder {h : List (ι × LockStep)} (hw : Waits h)
    (hrel : ∀ h' x, h' ++ [x] <+: h → x.2 = .release → holder h' = some x.1) (i : ι) :
    inside i h = true ↔ holder h = some i := by
  induction h using List.reverseRecOn with
  | nil => simp
  | append_singleton h x ih =>
    obtain ⟨hw, hx⟩ := forall_prefix_snoc.mp hw
    obtain ⟨hrel, hy⟩ := forall_prefix_snoc.mp hrel
    have hi := ih hw hrel
    obtain ⟨j, step⟩ := x
    rw [inside_snoc]
    cases step with
    | acquire =>
      have hfree : holder h = none := hx rfl
      by_cases hji : j = i
      · simp [hji]
      · simp [hji, hi, hfree]
    | release =>
      have hheld : holder h = some j := hy rfl
      by_cases hji : j = i
      · simp [hji]
      · simp [hji, hi, hheld]

/-- A lock whose acquisitions wait excludes exactly when every release is by a thread inside. -/
theorem mutualExclusion_iff {h : List (ι × LockStep)} (hw : Waits h) :
    MutualExclusion h ↔ ∀ h' x, h' ++ [x] <+: h → x.2 = .release → inside x.1 h' = true := by
  have hrel : (∀ h' x, h' ++ [x] <+: h → x.2 = .release → holder h' = some x.1) ↔
      ∀ h' x, h' ++ [x] <+: h → x.2 = .release → inside x.1 h' = true := by
    induction h using List.reverseRecOn with
    | nil => simp
    | append_singleton h x ih =>
      obtain ⟨hw, -⟩ := forall_prefix_snoc.mp hw
      rw [forall_prefix_snoc, forall_prefix_snoc]
      constructor
      · rintro ⟨hall, hx⟩
        refine ⟨(ih hw).mp hall, fun hrelease => ?_⟩
        exact (inside_iff_holder hw hall x.1).mpr (hx hrelease)
      · rintro ⟨hall, hx⟩
        have hheld := (ih hw).mpr hall
        refine ⟨hheld, fun hrelease => ?_⟩
        exact (inside_iff_holder hw hheld x.1).mp (hx hrelease)
  constructor
  · intro hm
    exact hrel.mp hm.released_by_holder
  · intro hall
    have hheld := hrel.mpr hall
    refine ⟨hheld, ?_⟩
    intro h' hp i j hi hj
    have hw' : Waits h' := fun k x hk => hw k x (hk.trans hp)
    have hin := inside_iff_holder hw' (fun k x hk => hheld k x (hk.trans hp))
    have hij : some i = some j := by rw [← (hin i).mp hi, (hin j).mp hj]
    exact Option.some.inj hij

end Locking
