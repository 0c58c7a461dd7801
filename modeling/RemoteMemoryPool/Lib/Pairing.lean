import Mathlib.Logic.Function.Basic
import Mathlib.Tactic.Common

/-!
# Pairing replies with requests on a FIFO line

Clients share a line on which requests are numbered in the order they are sent and answered in
that order. `awaiting i` is the number of the request client `i` has sent and not received a
reply to, and `queue` lists the numbers on the line. As long as every client has received its
own reply, the reply at the head of the line belongs to the client with the oldest request.
-/

namespace Pairing

variable {ι : Type}

structure Paired (awaiting : ι → Option Nat) (queue : List Nat) (next : Nat) : Prop where
  sorted : queue.Pairwise (· < ·)
  below : ∀ k ∈ queue, k < next
  queued : ∀ i k, awaiting i = some k → k ∈ queue
  owned : ∀ k ∈ queue, ∃ i, awaiting i = some k
  unique : ∀ i j k, awaiting i = some k → awaiting j = some k → i = j

variable {awaiting : ι → Option Nat} {queue : List Nat} {next : Nat}

lemma Paired.idle (h : ∀ i, awaiting i = none) : Paired awaiting [] next := by
  constructor <;> simp [h]

variable [DecidableEq ι]

lemma Paired.send (h : Paired awaiting queue next) {i : ι} (hi : awaiting i = none) :
    Paired (Function.update awaiting i (some next)) (queue ++ [next]) (next + 1) := by
  have hold : ∀ j k, awaiting j = some k → k < next := fun j k hj => h.below k (h.queued j k hj)
  constructor
  · rw [List.pairwise_append]
    refine ⟨h.sorted, List.pairwise_singleton _ _, ?_⟩
    intro a ha b hb
    rw [List.mem_singleton.mp hb]
    exact h.below a ha
  · intro k hk
    rcases List.mem_append.mp hk with hk | hk
    · have := h.below k hk
      omega
    · have := List.mem_singleton.mp hk
      omega
  · intro j k hj
    by_cases hji : j = i
    · subst hji
      simp only [Function.update_self, Option.some.injEq] at hj
      simp [hj]
    · rw [Function.update_of_ne hji] at hj
      exact List.mem_append_left _ (h.queued j k hj)
  · intro k hk
    rcases List.mem_append.mp hk with hk | hk
    · obtain ⟨j, hj⟩ := h.owned k hk
      have hji : j ≠ i := by
        rintro rfl
        simp [hi] at hj
      exact ⟨j, by rw [Function.update_of_ne hji, hj]⟩
    · exact ⟨i, by rw [Function.update_self, List.mem_singleton.mp hk]⟩
  · intro j l k hj hl
    by_cases hji : j = i <;> by_cases hli : l = i
    · rw [hji, hli]
    · rw [hji, Function.update_self, Option.some.injEq] at hj
      rw [Function.update_of_ne hli] at hl
      have := hold l k hl
      omega
    · rw [Function.update_of_ne hji] at hj
      rw [hli, Function.update_self, Option.some.injEq] at hl
      have := hold j k hj
      omega
    · rw [Function.update_of_ne hji] at hj
      rw [Function.update_of_ne hli] at hl
      exact h.unique j l k hj hl

/-- The reply at the head of the line is the client's own exactly if no other client awaits the
reply to an older request. -/
lemma Paired.head_iff {k m : Nat} (h : Paired awaiting (k :: queue) next) {i : ι}
    (hi : awaiting i = some m) :
    k = m ↔ ∀ j n, j ≠ i → awaiting j = some n → m < n := by
  have hfirst := List.pairwise_cons.mp h.sorted
  constructor
  · rintro rfl j n hji hj
    rcases List.mem_cons.mp (h.queued j n hj) with rfl | hn
    · exact (hji (h.unique j i n hj hi)).elim
    · exact hfirst.1 n hn
  · intro holdest
    obtain ⟨j, hj⟩ := h.owned k List.mem_cons_self
    by_cases hji : j = i
    · subst hji
      exact Option.some.inj (hj.symm.trans hi)
    · have hmk := holdest j k hji hj
      rcases List.mem_cons.mp (h.queued i m hi) with rfl | hm
      · rfl
      · have := hfirst.1 m hm
        omega

lemma Paired.recv {k : Nat} (h : Paired awaiting (k :: queue) next) {i : ι}
    (hi : awaiting i = some k) : Paired (Function.update awaiting i none) queue next := by
  have hfirst := List.pairwise_cons.mp h.sorted
  have hother : ∀ j m, Function.update awaiting i none j = some m → j ≠ i ∧ awaiting j = some m := by
    intro j m hj
    by_cases hji : j = i
    · simp [hji] at hj
    · rw [Function.update_of_ne hji] at hj
      exact ⟨hji, hj⟩
  constructor
  · exact hfirst.2
  · intro m hm
    exact h.below m (List.mem_cons_of_mem _ hm)
  · intro j m hj
    obtain ⟨hji, hj⟩ := hother j m hj
    rcases List.mem_cons.mp (h.queued j m hj) with rfl | hm
    · exact (hji (h.unique j i m hj hi)).elim
    · exact hm
  · intro m hm
    obtain ⟨j, hj⟩ := h.owned m (List.mem_cons_of_mem _ hm)
    have hji : j ≠ i := by
      rintro rfl
      have hkm := hfirst.1 m hm
      have := Option.some.inj (hi.symm.trans hj)
      omega
    exact ⟨j, by rw [Function.update_of_ne hji, hj]⟩
  · intro j l m hj hl
    exact h.unique j l m (hother j m hj).2 (hother l m hl).2

end Pairing
