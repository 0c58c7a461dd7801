import Mathlib.Tactic.Common

/-!
# Finite runs of a labelled transition relation

`Run Step s tr t` is a finite run from `s` to `t`. Its trace `tr` lists, for every step,
the state before the step and the label of the step. The two rules used throughout are
`Run.invariant`, which carries an invariant along a run whose steps all meet a
condition, and `Run.forall_iff`, which lifts a step-wise equivalence of two properties
to whole runs.
-/

namespace Transition

variable {S E : Type} {Step : S → E → S → Prop}

lemma forall_mem_snoc {X : Type} {P : X → Prop} {l : List X} {y : X} :
    (∀ x ∈ l ++ [y], P x) ↔ (∀ x ∈ l, P x) ∧ P y := by
  rw [List.forall_mem_append, List.forall_mem_singleton]

/-- What holds of any two members holds after one is added if it holds of the new one and any
other, in both orders, and of the new one and itself. -/
lemma forall_pair_mem_snoc {X : Type} {R : X → X → Prop} {l : List X} {y : X}
    (h : ∀ x ∈ l, ∀ x' ∈ l, R x x') (hy : ∀ x ∈ l, R x y ∧ R y x) (hyy : R y y) :
    ∀ x ∈ l ++ [y], ∀ x' ∈ l ++ [y], R x x' := by
  simp only [forall_mem_snoc]
  exact ⟨fun x hx => ⟨h x hx, (hy x hx).1⟩, fun x hx => (hy x hx).2, hyy⟩

lemma snoc_eq_append_cons {X : Type} {l before after : List X} {y j : X}
    (h : l ++ [y] = before ++ j :: after) :
    (before = l ∧ j = y) ∨ ∃ after', l = before ++ j :: after' := by
  rcases List.eq_nil_or_concat after with rfl | ⟨after', z, rfl⟩
  · obtain ⟨hl, hy⟩ := List.append_inj' h rfl
    exact .inl ⟨hl.symm, (List.singleton_inj.mp hy).symm⟩
  · rw [List.concat_eq_append, ← List.cons_append, ← List.append_assoc] at h
    exact .inr ⟨after', (List.append_inj' h rfl).1⟩

/-- A finite run, extended one step at a time. -/
inductive Run (Step : S → E → S → Prop) (s : S) : List (S × E) → S → Prop
  | nil : Run Step s [] s
  | snoc {t u : S} {tr : List (S × E)} {e : E} :
      Run Step s tr t → Step t e u → Run Step s (tr ++ [(t, e)]) u

lemma Run.single {s t : S} {e : E} (h : Step s e t) : Run Step s [(s, e)] t :=
  Run.snoc Run.nil h

lemma Run.cons {s t u : S} {e : E} {tr : List (S × E)} (h : Step s e t) (hr : Run Step t tr u) :
    Run Step s ((s, e) :: tr) u := by
  induction hr with
  | nil => exact Run.single h
  | snoc _ hs ih => exact ih.snoc hs

lemma Run.append {s t u : S} {tr tr' : List (S × E)} (h : Run Step s tr t)
    (h' : Run Step t tr' u) : Run Step s (tr ++ tr') u := by
  induction h' with
  | nil => simpa using h
  | snoc _ hs ih =>
    rw [← List.append_assoc]
    exact ih.snoc hs

/-- A loop: if every turn can be taken from where the turns before it led, there is a run that takes
all of them. -/
theorem Run.loop {I : Nat → List (S × E) → S → Prop} {e : Nat → E} {N : Nat}
    (hturn : ∀ n tr s, n < N → I n tr s →
      ∃ t, Step s (e n) t ∧ I (n + 1) (tr ++ [(s, e n)]) t)
    {tr : List (S × E)} {s : S} (h : I 0 tr s) :
    ∃ tr' t, Run Step s tr' t ∧ tr'.map Prod.snd = (List.range N).map e ∧ I N (tr ++ tr') t := by
  suffices hall : ∀ n, n ≤ N → ∃ tr' t, Run Step s tr' t ∧
      tr'.map Prod.snd = (List.range n).map e ∧ I n (tr ++ tr') t from hall N (Nat.le_refl N)
  intro n hn
  induction n with
  | zero => exact ⟨[], s, Run.nil, rfl, by rwa [List.append_nil]⟩
  | succ n ih =>
    obtain ⟨tr', t, hrun, hev, hI⟩ := ih (by omega)
    obtain ⟨u, hs, hI'⟩ := hturn n (tr ++ tr') t hn hI
    refine ⟨_, u, hrun.snoc hs, ?_, ?_⟩
    · rw [List.map_append, hev, List.range_succ, List.map_append]
      rfl
    · rwa [← List.append_assoc]

/-- A run whose steps all meet `C` is a run of the steps that meet `C`. -/
lemma Run.restrict {C : S → E → Prop} {s t : S} {tr : List (S × E)} (h : Run Step s tr t)
    (hC : ∀ x ∈ tr, C x.1 x.2) : Run (fun s e t => Step s e t ∧ C s e) s tr t := by
  induction h with
  | nil => exact Run.nil
  | @snoc t u tr e hr hs ih =>
    rw [forall_mem_snoc] at hC
    exact (ih hC.1).snoc ⟨hs, hC.2⟩

/-- Every entry of the trace is a step of the run taken from a state the run reached. -/
theorem Run.reached {s t : S} {tr : List (S × E)} (h : Run Step s tr t) :
    ∀ x ∈ tr, ∃ tr' u, tr' ++ [x] <+: tr ∧ Run Step s tr' x.1 ∧ Step x.1 x.2 u := by
  induction h with
  | nil => simp
  | @snoc t u tr e hr hs ih =>
    intro x hx
    rcases List.mem_append.mp hx with hx | hx
    · obtain ⟨tr', v, hp, hrun, hstep⟩ := ih x hx
      exact ⟨tr', v, hp.trans (List.prefix_append tr _), hrun, hstep⟩
    · obtain rfl : x = (t, e) := by simpa using hx
      exact ⟨tr, u, List.prefix_rfl, hr, hs⟩

/-- An invariant preserved by every step that meets `C` holds at the end of a run whose
steps all meet `C`. -/
theorem Run.invariant {I : S → Prop} {C : S → E → Prop}
    (hstep : ∀ s e t, I s → C s e → Step s e t → I t)
    {s t : S} {tr : List (S × E)} (h : Run Step s tr t) (hI : I s)
    (hC : ∀ x ∈ tr, C x.1 x.2) : I t := by
  induction h with
  | nil => exact hI
  | @snoc t u tr e hr hs ih =>
    have hi := ih (fun x hx => hC x (List.mem_append_left _ hx))
    exact hstep t e u hi (hC (t, e) (by simp)) hs

/-- The invariant also holds in the state before every step of the run. -/
theorem Run.invariant_before {I : S → Prop} {C : S → E → Prop}
    (hstep : ∀ s e t, I s → C s e → Step s e t → I t)
    {s t : S} {tr : List (S × E)} (h : Run Step s tr t) (hI : I s)
    (hC : ∀ x ∈ tr, C x.1 x.2) : ∀ x ∈ tr, I x.1 := by
  intro x hx
  obtain ⟨tr', u, hp, hrun, -⟩ := h.reached x hx
  exact hrun.invariant hstep hI (fun y hy => hC y (hp.subset (List.mem_append_left _ hy)))

/-- Two properties of steps that agree wherever the invariant holds, the first of which
keeps the invariant, hold of the same runs. -/
theorem Run.forall_iff {I : S → Prop} {P C : S → E → Prop}
    (hkeep : ∀ s e t, I s → P s e → Step s e t → I t)
    (hiff : ∀ s e t, I s → Step s e t → (P s e ↔ C s e))
    {s t : S} {tr : List (S × E)} (h : Run Step s tr t) (hI : I s) :
    (∀ x ∈ tr, P x.1 x.2) ↔ (∀ x ∈ tr, C x.1 x.2) := by
  induction h with
  | nil => simp
  | @snoc t u tr e hr hs ih =>
    rw [forall_mem_snoc, forall_mem_snoc]
    constructor
    · rintro ⟨hP, he⟩
      have hi := hr.invariant hkeep hI hP
      exact ⟨ih.mp hP, (hiff t e u hi hs).mp he⟩
    · rintro ⟨hC, he⟩
      have hP := ih.mpr hC
      have hi := hr.invariant hkeep hI hP
      exact ⟨hP, (hiff t e u hi hs).mpr he⟩

/-- An invariant of the states and the steps so far. -/
theorem Run.history_invariant {s : S} {I : List (S × E) → S → Prop}
    {C : List (S × E) → S → E → Prop}
    (hstep : ∀ h t e u, I h t → C h t e → Step t e u → I (h ++ [(t, e)]) u)
    {t : S} {tr : List (S × E)} (hr : Run Step s tr t) (hI : I [] s)
    (hC : ∀ h x, h ++ [x] <+: tr → C h x.1 x.2) : I tr t := by
  induction hr with
  | nil => exact hI
  | @snoc t u tr e hr hs ih =>
    have hi := ih (fun h x hp => hC h x (hp.trans (List.prefix_append tr _)))
    exact hstep tr t e u hi (hC tr (t, e) List.prefix_rfl) hs

lemma forall_prefix_snoc {X : Type} {P : List X → X → Prop} {l : List X} {y : X} :
    (∀ h x, h ++ [x] <+: l ++ [y] → P h x) ↔ (∀ h x, h ++ [x] <+: l → P h x) ∧ P l y := by
  constructor
  · intro hall
    exact ⟨fun h x hp => hall h x (hp.trans (List.prefix_append l _)), hall l y List.prefix_rfl⟩
  · rintro ⟨hall, hy⟩ h x hp
    rcases List.prefix_concat_iff.mp hp with heq | hp
    · obtain ⟨rfl, hxy⟩ := List.append_inj' heq rfl
      obtain rfl : x = y := by simpa using hxy
      exact hy
    · exact hall h x hp

lemma forall_prefix_iff_take {X : Type} {P : List X → X → Prop} {l : List X} :
    (∀ h x, h ++ [x] <+: l → P h x) ↔ ∀ i (hi : i < l.length), P (l.take i) l[i] := by
  constructor
  · intro hall i hi
    apply hall
    rw [List.take_append_getElem hi]
    exact List.take_prefix _ _
  · rintro hall h x ⟨t, rfl⟩
    simpa using hall h.length (by simp)

/-- The steps before an entry of the trace lead to the state of the entry, and its step is
taken from there. -/
theorem Run.before {s t : S} {tr : List (S × E)} (hr : Run Step s tr t) :
    ∀ h x, h ++ [x] <+: tr → Run Step s h x.1 ∧ ∃ u, Step x.1 x.2 u := by
  induction hr with
  | nil => simp
  | @snoc t u tr e hr hs ih => exact forall_prefix_snoc.mpr ⟨ih, hr, u, hs⟩

/-- `Run.forall_iff` for properties that depend on the steps so far. -/
theorem Run.history_forall_iff {s : S} {I : List (S × E) → S → Prop}
    {P C : List (S × E) → S → E → Prop}
    (hkeep : ∀ h t e u, I h t → P h t e → Step t e u → I (h ++ [(t, e)]) u)
    (hiff : ∀ h t e u, I h t → Step t e u → (P h t e ↔ C h t e))
    {t : S} {tr : List (S × E)} (hr : Run Step s tr t) (hI : I [] s) :
    (∀ h x, h ++ [x] <+: tr → P h x.1 x.2) ↔ (∀ h x, h ++ [x] <+: tr → C h x.1 x.2) := by
  induction hr with
  | nil => simp
  | @snoc t u tr e hr hs ih =>
    rw [forall_prefix_snoc, forall_prefix_snoc]
    constructor
    · rintro ⟨hP, he⟩
      have hi := hr.history_invariant hkeep hI hP
      exact ⟨ih.mp hP, (hiff tr t e u hi hs).mp he⟩
    · rintro ⟨hC, he⟩
      have hP := ih.mpr hC
      have hi := hr.history_invariant hkeep hI hP
      exact ⟨hP, (hiff tr t e u hi hs).mpr he⟩

/-- If a step from a state with `P` ends in a state with `P` exactly when it meets `C`, then all
states a run passes through have `P` exactly when all its steps meet `C`. -/
theorem Run.states_iff {I P : S → Prop} {Q C : S → E → Prop}
    (hkeep : ∀ s e t, I s → Q s e → Step s e t → I t)
    (hiff : ∀ s e t, I s → P s → Q s e → Step s e t → (P t ↔ C s e))
    {s t : S} {tr : List (S × E)} (h : Run Step s tr t) (hI : I s) (hP : P s)
    (hQ : ∀ x ∈ tr, Q x.1 x.2) :
    ((∀ x ∈ tr, P x.1) ∧ P t) ↔ ∀ x ∈ tr, C x.1 x.2 := by
  induction h with
  | nil => simp [hP]
  | @snoc t u tr e hr hs ih =>
    rw [forall_mem_snoc] at hQ
    rw [forall_mem_snoc, forall_mem_snoc]
    have hi := hr.invariant hkeep hI hQ.1
    have hih := ih hQ.1
    constructor
    · rintro ⟨⟨hall, ht⟩, hu⟩
      exact ⟨hih.mp ⟨hall, ht⟩, (hiff t e u hi ht hQ.2 hs).mp hu⟩
    · rintro ⟨hC, he⟩
      obtain ⟨hall, ht⟩ := hih.mpr hC
      exact ⟨⟨hall, ht⟩, (hiff t e u hi ht hQ.2 hs).mpr he⟩

/-- The steps of a run, each with the state it leads to; `t` is the last state of the run. -/
def transitions (tr : List (S × E)) (t : S) : List ((S × E) × S) :=
  tr.zip ((tr.map Prod.fst).tail ++ [t])

lemma transitions_snoc (tr : List (S × E)) (s t : S) (e : E) :
    transitions (tr ++ [(s, e)]) t = transitions tr s ++ [((s, e), t)] := by
  cases tr with
  | nil => rfl
  | cons x tr =>
    have hlen : (x :: tr).length = (tr.map Prod.fst ++ [s]).length := by simp
    have htail : (((x :: tr) ++ [(s, e)]).map Prod.fst).tail = tr.map Prod.fst ++ [s] := by simp
    rw [transitions, htail, List.zip_append hlen]
    rfl

/-- Forward simulation: if every step that meets `C` is matched by a step of `Step'` with
the same label, every run whose steps meet `C` is matched by a run with the same labels. -/
theorem Run.simulate {T : Type} {Step' : T → E → T → Prop} {R : S → T → Prop} {C : S → E → Prop}
    (hstep : ∀ s e s' t, R s t → C s e → Step s e s' → ∃ t', Step' t e t' ∧ R s' t')
    {s s' : S} {tr : List (S × E)} (h : Run Step s tr s') {t : T} (hR : R s t)
    (hC : ∀ x ∈ tr, C x.1 x.2) :
    ∃ tr' t', Run Step' t tr' t' ∧ tr'.map Prod.snd = tr.map Prod.snd ∧ R s' t' := by
  induction h with
  | nil => exact ⟨[], t, Run.nil, rfl, hR⟩
  | @snoc u v tr e hr hs ih =>
    obtain ⟨tr', t', hrun, hlab, hR'⟩ := ih (fun x hx => hC x (List.mem_append_left _ hx))
    obtain ⟨t'', hst, hR''⟩ := hstep u e v t' hR' (hC (u, e) (by simp)) hs
    exact ⟨tr' ++ [(t', e)], t'', hrun.snoc hst, by simp [hlab], hR''⟩

/-- The observations of a machine on a list of inputs, and the state it ends in; `none` if it
stops on the way. -/
def observe {O : Type} (f : E → S → Option (O × S)) : List E → S → Option (List O × S)
  | [], s => some ([], s)
  | e :: es, s => (f e s).bind (fun x => (observe f es x.2).map (fun y => (x.1 :: y.1, y.2)))

/-- Two machines whose single observations agree, and which stop at the same inputs, make the
same observations on every list of inputs. -/
theorem observe_agree {O T : Type} {f : E → S → Option (O × S)} {g : E → T → Option (O × T)}
    {R : S → T → Prop}
    (hstep : ∀ e s t, R s t → Option.Rel (fun x y => x.1 = y.1 ∧ R x.2 y.2) (f e s) (g e t))
    (es : List E) {s : S} {t : T} (h : R s t) :
    Option.Rel (fun x y => x.1 = y.1 ∧ R x.2 y.2) (observe f es s) (observe g es t) := by
  induction es generalizing s t with
  | nil => exact .some ⟨rfl, h⟩
  | cons e es ih =>
    have hhead := hstep e s t h
    unfold observe
    generalize f e s = x at hhead ⊢
    generalize g e t = y at hhead ⊢
    cases hhead with
    | none => exact .none
    | some hxy =>
      obtain ⟨ho, hR⟩ := hxy
      have htail := ih hR
      simp only [Option.bind_some]
      generalize observe f es _ = x' at htail ⊢
      generalize observe g es _ = y' at htail ⊢
      cases htail with
      | none => exact .none
      | some hxy' => exact .some ⟨congrArg₂ List.cons ho hxy'.1, hxy'.2⟩

end Transition
