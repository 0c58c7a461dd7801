import RemoteMemoryPool.Lib.Program

/-!
# Linearizability

Calls of an object run concurrently as programs of atomic operations. `Linearization` says that
their replies are those of calls made one after another, in an order that agrees with real time:
a call that had returned when another had not begun comes first. `Committing` is the forward
simulation that gives it: every operation leaves the abstract object alone or is the one at which
its call takes effect.
-/

namespace Interaction

open Transition

variable {Op : Type} {Res : Op → Type} {ι σ α T : Type}

/-- Calls made one after another on the abstract object, each with its reply. -/
inductive InTurn (Spec : T → ι → α → T → Prop) (t : T) : List (ι × α) → T → Prop
  | nil : InTurn Spec t [] t
  | snoc {u v : T} {seq : List (ι × α)} {i : ι} {reply : α} :
      InTurn Spec t seq u → Spec u i reply v → InTurn Spec t (seq ++ [(i, reply)]) v

/-- The order `seq` explains the run `tr` of the calls `calls` that ended in `c`. -/
structure Linearization (Spec : T → ι → α → T → Prop) (calls : ι → Program Res α) (t : T)
    (tr : List (Pool ι Res σ α × Action ι Res)) (c : Pool ι Res σ α) (seq : List (ι × α)) (t' : T) :
    Prop where
  legal : InTurn Spec t seq t'
  once : (seq.map Prod.fst).Nodup
  returned : ∀ i reply, c.threads i = .pure reply → (i, reply) ∈ seq
  realTime : ∀ h x, h ++ [x] <+: tr → ∀ i j reply, x.1.threads i = .pure reply →
    x.1.threads j = calls j → ∀ before after reply', seq = before ++ (j, reply') :: after →
      (i, reply) ∈ before

variable [DecidableEq ι]

/-- A relation between the calls with their shared state, the abstract object, and the replies of
the calls that have taken effect. -/
structure Committing (Spec : T → ι → α → T → Prop) (calls : ι → Program Res α)
    (Step : Pool ι Res σ α → Action ι Res → Pool ι Res σ α → Prop)
    (R : Pool ι Res σ α → T → (ι → Option α) → Prop) : Prop where
  step : ∀ c t ρ a c', R c t ρ → Step c a c' → R c' t ρ ∨
    ρ a.thread = none ∧ ∃ reply t', Spec t a.thread reply t' ∧
      R c' t' (Function.update ρ a.thread (some reply))
  returned : ∀ c t ρ i reply, R c t ρ → c.threads i = .pure reply → ρ i = some reply
  begun : ∀ c t ρ i, R c t ρ → c.threads i = calls i → ρ i = none

section Rule

variable {Spec : T → ι → α → T → Prop} {calls : ι → Program Res α}
  {Step : Pool ι Res σ α → Action ι Res → Pool ι Res σ α → Prop}
  {R : Pool ι Res σ α → T → (ι → Option α) → Prop} {t : T}

/-- What the rule carries along a run: the order so far, the replies in it, and that a call that
had returned at some point is in it. -/
structure Explained (Spec : T → ι → α → T → Prop) (calls : ι → Program Res α)
    (R : Pool ι Res σ α → T → (ι → Option α) → Prop) (t : T)
    (tr : List (Pool ι Res σ α × Action ι Res)) (c : Pool ι Res σ α) (seq : List (ι × α)) (t' : T)
    (ρ : ι → Option α) : Prop where
  related : R c t' ρ
  replies : ∀ i reply, ρ i = some reply ↔ (i, reply) ∈ seq
  past : ∀ h x, h ++ [x] <+: tr → ∀ i reply, x.1.threads i = .pure reply → (i, reply) ∈ seq
  order : Linearization Spec calls t tr c seq t'

variable {tr : List (Pool ι Res σ α × Action ι Res)} {c c' : Pool ι Res σ α} {seq : List (ι × α)}
  {t' : T} {ρ : ι → Option α} {a : Action ι Res}

lemma Explained.past_step (h : Explained Spec calls R t tr c seq t' ρ)
    (hC : Committing Spec calls Step R) {s : List (Pool ι Res σ α × Action ι Res)}
    {x : Pool ι Res σ α × Action ι Res} (hp : s ++ [x] <+: tr ++ [(c, a)]) {i : ι} {reply : α}
    (hi : x.1.threads i = .pure reply) : (i, reply) ∈ seq := by
  rcases List.prefix_concat_iff.mp hp with heq | hp
  · obtain ⟨-, hx⟩ := List.append_inj' heq rfl
    obtain rfl : x = (c, a) := List.singleton_inj.mp hx
    exact (h.replies i reply).mp (hC.returned c t' ρ i reply h.related hi)
  · exact h.past s x hp i reply hi

lemma Explained.realTime_step (h : Explained Spec calls R t tr c seq t' ρ)
    (hC : Committing Spec calls Step R) {s : List (Pool ι Res σ α × Action ι Res)}
    {x : Pool ι Res σ α × Action ι Res} (hp : s ++ [x] <+: tr ++ [(c, a)]) {i j : ι} {reply reply' : α}
    (hi : x.1.threads i = .pure reply) (hj : x.1.threads j = calls j) {before after : List (ι × α)}
    (hseq : seq = before ++ (j, reply') :: after) : (i, reply) ∈ before := by
  rcases List.prefix_concat_iff.mp hp with heq | hp
  · -- at the last step `j` has not begun, so it is not in the order
    obtain ⟨-, hx⟩ := List.append_inj' heq rfl
    obtain rfl : x = (c, a) := List.singleton_inj.mp hx
    have hmem : (j, reply') ∈ seq := by simp [hseq]
    have hsome := (h.replies j reply').mpr hmem
    rw [hC.begun c t' ρ j h.related hj] at hsome
    cases hsome
  · exact h.order.realTime s x hp i j reply hi hj before after reply' hseq

lemma Explained.stutter (h : Explained Spec calls R t tr c seq t' ρ)
    (hC : Committing Spec calls Step R) (hR : R c' t' ρ) :
    Explained Spec calls R t (tr ++ [(c, a)]) c' seq t' ρ where
  related := hR
  replies := h.replies
  past _ _ hp _ _ hi := h.past_step hC hp hi
  order :=
    { legal := h.order.legal
      once := h.order.once
      returned := fun i reply hi => (h.replies i reply).mp (hC.returned c' t' ρ i reply hR hi)
      realTime := fun _ _ hp _ _ _ hi hj _ _ _ hseq => h.realTime_step hC hp hi hj hseq }

/-- The operation at which its call takes effect. -/
lemma Explained.commit (h : Explained Spec calls R t tr c seq t' ρ)
    (hC : Committing Spec calls Step R) {k : ι} (hk : ρ k = none) {reply : α} {t'' : T}
    (hs : Spec t' k reply t'') (hR : R c' t'' (Function.update ρ k (some reply))) :
    Explained Spec calls R t (tr ++ [(c, a)]) c' (seq ++ [(k, reply)]) t''
      (Function.update ρ k (some reply)) := by
  have hnew : ∀ r, (k, r) ∉ seq := by
    intro r hmem
    rw [← h.replies k r, hk] at hmem
    cases hmem
  have hreplies : ∀ i r, Function.update ρ k (some reply) i = some r ↔
      (i, r) ∈ seq ++ [(k, reply)] := by
    intro i r
    rw [List.mem_append, List.mem_singleton, ← h.replies i r]
    by_cases hik : i = k
    · subst hik
      rw [Function.update_self, hk]
      simp [eq_comm]
    · rw [Function.update_of_ne hik]
      simp [hik]
  constructor
  · exact hR
  · exact hreplies
  · intro s x hp i r hi
    exact List.mem_append_left _ (h.past_step hC hp hi)
  · constructor
    · exact h.order.legal.snoc hs
    · rw [List.map_append, List.map_singleton]
      refine List.nodup_append.mpr ⟨h.order.once, by simp, ?_⟩
      intro i hi j hj
      obtain ⟨⟨i', r⟩, hmem, rfl⟩ := List.mem_map.mp hi
      obtain rfl := List.mem_singleton.mp hj
      rintro rfl
      exact hnew r hmem
    · intro i r hi
      exact (hreplies i r).mp (hC.returned c' t'' _ i r hR hi)
    · intro s x hp i j r hi hj before after r' hseq
      rcases snoc_eq_append_cons hseq with ⟨rfl, -⟩ | ⟨after', hseq⟩
      · exact h.past_step hC hp hi
      · exact h.realTime_step hC hp hi hj hseq

/-- Every run of calls that such a relation holds of has a linearization. -/
theorem Committing.linearize (hC : Committing Spec calls Step R) {c₀ : Pool ι Res σ α}
    (hr : Run Step c₀ tr c) (h0 : R c₀ t (fun _ => none)) :
    ∃ seq t' ρ, Linearization Spec calls t tr c seq t' ∧ R c t' ρ := by
  have hex : ∃ seq t' ρ, Explained Spec calls R t tr c seq t' ρ := by
    induction hr with
    | nil =>
      have hnone : ∀ i reply, c₀.threads i ≠ .pure reply := by
        intro i reply hi
        have := hC.returned c₀ t _ i reply h0 hi
        cases this
      refine ⟨[], t, fun _ => none, h0, by simp, by simp, InTurn.nil, by simp, ?_, by simp⟩
      exact fun i reply hi => (hnone i reply hi).elim
    | @snoc c c' tr a hr hs ih =>
      obtain ⟨seq, t', ρ, h⟩ := ih
      rcases hC.step c t' ρ a c' h.related hs with hR | ⟨hk, reply, t'', hspec, hR⟩
      · exact ⟨seq, t', ρ, h.stutter hC hR⟩
      · exact ⟨_, t'', _, h.commit hC hk hspec hR⟩
  obtain ⟨seq, t', ρ, h⟩ := hex
  exact ⟨seq, t', ρ, h.order, h.related⟩

end Rule

end Interaction
