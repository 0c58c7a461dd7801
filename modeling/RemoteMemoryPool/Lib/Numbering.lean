import RemoteMemoryPool.Lib.Runs
import Mathlib.Data.Nat.ModEq
import Mathlib.Data.List.Induction

/-!
# Names numbered by a counter that wraps around

Some events of a history take the next name, where the `k`-th taken name is `k % M`, and
some release a name. A name is in use when it was taken and not released since.
`not_inUse_next_iff` says when the next name is a new one.
-/

namespace Numbering

variable {E : Type} (takes : E → Prop) [DecidablePred takes] (releases : E → Nat → Prop) (M : Nat)

def taken (h : List E) : Nat := h.countP (fun e => takes e)

/-- The `k`-th name was released after it had been taken. -/
def ReleasedSince (h : List E) (k : Nat) : Prop :=
  ∃ g e, g ++ [e] <+: h ∧ k < taken takes g ∧ releases e (k % M)

/-- The name was taken and not released since. -/
def InUse (h : List E) (v : Nat) : Prop :=
  ∃ k < taken takes h, k % M = v ∧ ¬ReleasedSince takes releases M h k

variable {takes releases M} {h : List E} {e : E} {k v : Nat}

lemma taken_snoc : taken takes (h ++ [e]) = taken takes h + if takes e then 1 else 0 := by
  simp only [taken, List.countP_append, List.countP_singleton, decide_eq_true_eq]

variable (takes) in
lemma taken_le_of_prefix {g : List E} (hp : g <+: h) : taken takes g ≤ taken takes h :=
  hp.sublist.countP_le

lemma ReleasedSince.mono {g : List E} (hr : ReleasedSince takes releases M g k) (hp : g <+: h) :
    ReleasedSince takes releases M h k := by
  obtain ⟨g', e, hg, hk, he⟩ := hr
  exact ⟨g', e, hg.trans hp, hk, he⟩

lemma ReleasedSince.earlier {j : Nat} (hr : ReleasedSince takes releases M h k) (hj : j ≤ k)
    (hmod : j % M = k % M) : ReleasedSince takes releases M h j := by
  obtain ⟨g, e, hg, hk, he⟩ := hr
  exact ⟨g, e, hg, by omega, hmod ▸ he⟩

lemma releasedSince_snoc : ReleasedSince takes releases M (h ++ [e]) k ↔
    ReleasedSince takes releases M h k ∨ (k < taken takes h ∧ releases e (k % M)) := by
  constructor
  · rintro ⟨g, x, hg, hk, hx⟩
    rcases List.prefix_concat_iff.mp hg with heq | hg
    · obtain ⟨rfl, hxe⟩ := List.append_inj' heq rfl
      obtain rfl : x = e := by simpa using hxe
      exact Or.inr ⟨hk, hx⟩
    · exact Or.inl ⟨g, x, hg, hk, hx⟩
  · rintro (hr | ⟨hk, he⟩)
    · exact hr.mono (List.prefix_append h _)
    · exact ⟨h, e, List.prefix_rfl, hk, he⟩

lemma not_inUse_nil : ¬InUse takes releases M [] v := by
  rintro ⟨k, hk, -⟩
  simp [taken] at hk

lemma inUse_snoc_take (he : takes e) (hno : ∀ v, ¬releases e v) :
    InUse takes releases M (h ++ [e]) v ↔ v = taken takes h % M ∨ InUse takes releases M h v := by
  have hsnoc (k : Nat) : ReleasedSince takes releases M (h ++ [e]) k ↔
      ReleasedSince takes releases M h k := by
    simp [releasedSince_snoc, hno]
  have htaken : taken takes (h ++ [e]) = taken takes h + 1 := by simp [taken_snoc, he]
  simp only [InUse, hsnoc, htaken]
  constructor
  · rintro ⟨k, hk, hv, hr⟩
    by_cases hlast : k = taken takes h
    · exact Or.inl (by rw [← hv, hlast])
    · exact Or.inr ⟨k, by omega, hv, hr⟩
  · rintro (rfl | ⟨k, hk, hv, hr⟩)
    · refine ⟨taken takes h, by omega, rfl, ?_⟩
      rintro ⟨g, x, hg, hk, -⟩
      have := taken_le_of_prefix takes ((List.prefix_append g [x]).trans hg)
      omega
    · exact ⟨k, by omega, hv, hr⟩

lemma inUse_snoc_release (he : ¬takes e) :
    InUse takes releases M (h ++ [e]) v ↔ ¬releases e v ∧ InUse takes releases M h v := by
  have htaken : taken takes (h ++ [e]) = taken takes h := by simp [taken_snoc, he]
  simp only [InUse, releasedSince_snoc, htaken]
  constructor
  · rintro ⟨k, hk, rfl, hr⟩
    rw [not_or, not_and] at hr
    exact ⟨hr.2 hk, k, hk, rfl, hr.1⟩
  · rintro ⟨hno, k, hk, rfl, hr⟩
    refine ⟨k, hk, rfl, ?_⟩
    rintro (hr' | ⟨-, hr'⟩)
    · exact hr hr'
    · exact hno hr'

/-- The next name is not in use exactly when the taking of it one round of the counter ago, if
there was one, has been released. -/
theorem not_inUse_next_iff (hM : 0 < M) :
    ¬InUse takes releases M h (taken takes h % M) ↔
      (M ≤ taken takes h → ReleasedSince takes releases M h (taken takes h - M)) := by
  constructor
  · intro hfree hle
    by_contra hr
    apply hfree
    refine ⟨taken takes h - M, by omega, ?_, hr⟩
    exact (Nat.mod_eq_sub_mod hle).symm
  · rintro hr ⟨k, hk, hv, hnot⟩
    have hdvd : M ∣ taken takes h - k := (Nat.modEq_iff_dvd' hk.le).mp hv
    have hstep : M ≤ taken takes h - k := Nat.le_of_dvd (by omega) hdvd
    have hle : M ≤ taken takes h := by omega
    apply hnot
    apply (hr hle).earlier (by omega)
    rw [hv, Nat.mod_eq_sub_mod hle]

lemma exists_take_of_lt {n : Nat} (hn : n < taken takes h) :
    ∃ g e, g ++ [e] <+: h ∧ takes e ∧ taken takes g = n := by
  induction h using List.reverseRecOn with
  | nil => simp [taken] at hn
  | append_singleton h e ih =>
    rw [taken_snoc] at hn
    by_cases hlt : n < taken takes h
    · obtain ⟨g, x, hg, hx⟩ := ih hlt
      exact ⟨g, x, hg.trans (List.prefix_append h _), hx⟩
    · split at hn
      · next he => exact ⟨h, e, List.prefix_rfl, he, by omega⟩
      · omega

/-- If every name was new when it was taken, of two takings of one name the earlier has been
released. -/
theorem released_of_same_name (hM : 0 < M)
    (hnew : ∀ g e, g ++ [e] <+: h → takes e → ¬InUse takes releases M g (taken takes g % M))
    {i j : Nat} (hij : i < j) (hj : j < taken takes h) (hmod : i % M = j % M) :
    ReleasedSince takes releases M h i := by
  have hdvd : M ∣ j - i := (Nat.modEq_iff_dvd' hij.le).mp hmod
  have hstep : M ≤ j - i := Nat.le_of_dvd (by omega) hdvd
  have hlt : i + M < taken takes h := by omega
  obtain ⟨g, e, hg, he, hcount⟩ := exists_take_of_lt hlt
  have hr := (not_inUse_next_iff hM).mp (hnew g e hg he) (by omega)
  rw [hcount, Nat.add_sub_cancel] at hr
  exact hr.mono ((List.prefix_append g [e]).trans hg)

end Numbering
