import RemoteMemoryPool.Lib.Program
import Mathlib.Data.List.TakeWhile

/-!
# Programs that copy a cell others write to

While a program performs its operations, others write to a cell of the state. The program copies
the cell once, uses the copy, and in the end discards the cell; all its other operations neither
read nor change the cell. Then the outcome is that of the copy (`Snapshot.outcome`): what is
written to the cell between the copy and the discard has no influence, and anything may be
written there (`Snapshot.window`).
-/

namespace Interaction

open Transition

variable {Op : Type} {Res : Op → Type} {σ α D W : Type}

/-- A cell of the state; it may be absent. A write `w` changes its contents by `apply w`. -/
structure Cell (σ D W : Type) where
  get : σ → Option D
  put : D → σ → σ
  apply : W → D → D
  get_put : ∀ d s, get (put d s) = some d
  put_put : ∀ d e s, put d (put e s) = put d s

/-- What happens next: an operation of the program, or a write to the cell. -/
inductive Contention (Op W : Type) : Type
  | perform (op : Op)
  | write (w : W)

/-- The program performs its next operation, or another thread writes to the cell. -/
inductive Contended (h : (op : Op) → σ → Option (Res op × σ)) (cell : Cell σ D W) :
    Program Res α × σ → Contention Op W → Program Res α × σ → Prop
  | perform {op : Op} {next : Res op → Program Res α} {s t : σ} {r : Res op}
      (ho : h op s = some (r, t)) : Contended h cell (.call op next, s) (.perform op) (next r, t)
  | write {x : Program Res α} {s : σ} {w : W} {d : D} (hd : cell.get s = some d) :
      Contended h cell (x, s) (.write w) (x, cell.put (cell.apply w d) s)

section Writes

variable {S : Type} (copy : Op → Bool)

def Contention.isCopy : Contention Op W → Bool
  | .perform op => copy op
  | .write _ => false

def writes (tr : List (S × Contention Op W)) : List W :=
  tr.filterMap (fun x => match x.2 with
    | .perform _ => none
    | .write w => some w)

def writesBefore (tr : List (S × Contention Op W)) : List W :=
  writes (tr.takeWhile (fun x => !x.2.isCopy copy))

def writesAfter (tr : List (S × Contention Op W)) : List W :=
  writes (tr.dropWhile (fun x => !x.2.isCopy copy))

/-- The contents of the cell after some writes. -/
def Cell.value (cell : Cell σ D W) (d : D) (ws : List W) : D := ws.foldl (fun d w => cell.apply w d) d

lemma writes_append (tr tr' : List (S × Contention Op W)) :
    writes (tr ++ tr') = writes tr ++ writes tr' := List.filterMap_append

lemma writesBefore_append_writesAfter (tr : List (S × Contention Op W)) :
    writesBefore copy tr ++ writesAfter copy tr = writes tr := by
  unfold writesBefore writesAfter
  rw [← writes_append, List.takeWhile_append_dropWhile]

lemma Cell.value_append (cell : Cell σ D W) (d : D) (ws ws' : List W) :
    cell.value d (ws ++ ws') = cell.value (cell.value d ws) ws' := List.foldl_append

variable {copy} {tr : List (S × Contention Op W)}

lemma writesBefore_snoc_of_copied (hc : ∃ x ∈ tr, x.2.isCopy copy = true)
    (y : S × Contention Op W) : writesBefore copy (tr ++ [y]) = writesBefore copy tr := by
  obtain ⟨x, hx, hcx⟩ := hc
  have hlen : (tr.takeWhile (fun x => !x.2.isCopy copy)).length ≠ tr.length := by
    intro hl
    have hall := List.takeWhile_eq_self_iff.mp
      ((List.takeWhile_prefix (fun x : S × Contention Op W => !x.2.isCopy copy)).eq_of_length hl)
    simpa [hcx] using hall x hx
  rw [writesBefore, List.takeWhile_append, if_neg hlen, writesBefore]

lemma split_at_copy (hn : ∀ x ∈ tr, x.2.isCopy copy = false) {op : Op} (hop : copy op = true)
    (s : S) (rest : List (S × Contention Op W)) :
    writesBefore copy (tr ++ (s, .perform op) :: rest) = writes tr ∧
      writesAfter copy (tr ++ (s, .perform op) :: rest) = writes rest := by
  have hall : ∀ x ∈ tr, (fun x : S × Contention Op W => !x.2.isCopy copy) x = true :=
    fun x hx => by simp [hn x hx]
  unfold writesBefore writesAfter
  rw [List.takeWhile_append_of_pos hall, List.dropWhile_append_of_pos hall]
  simp [Contention.isCopy, hop, writes]

end Writes

section Programs

variable (h : (op : Op) → σ → Option (Res op × σ)) (cell : Cell σ D W) (copy : Op → Bool)

/-- The program gets, by operations that neither read nor change the cell, to a place where
`stop` holds. The state is given up to the contents of the cell. -/
inductive Leads (stop : Program Res α → σ → Prop) : Program Res α → σ → Prop
  | here {x : Program Res α} {s : σ} (hs : stop x s) : Leads stop x s
  | op {op : Op} {next : Res op → Program Res α} {s t : σ} {r : Res op} (hc : copy op = false)
      (ho : ∀ d, h op (cell.put d s) = some (r, cell.put d t)) (hn : Leads stop (next r) t) :
      Leads stop (.call op next) s

/-- The program discards the cell, whatever it holds, and returns `a`. -/
def Discards (a : α) (final : σ → Prop) (x : Program Res α) (s : σ) : Prop :=
  ∃ (op : Op) (next : Res op → Program Res α) (r : Res op) (t : σ), x = .call op next ∧
    copy op = false ∧ (∀ d, h op (cell.put d s) = some (r, t)) ∧ next r = .pure a ∧
    cell.get t = none ∧ final t

/-- The program copies the cell and goes on to discard it. -/
def Copies (a : α) (final : D → σ → Prop) (x : Program Res α) (s : σ) : Prop :=
  ∃ (op : Op) (next : Res op → Program Res α) (answer : D → Res op), x = .call op next ∧
    copy op = true ∧ (∀ d, h op (cell.put d s) = some (answer d, cell.put d s)) ∧
    ∀ d, Leads h cell copy (Discards h cell copy a (final d)) (next (answer d)) s

/-- The program copies the cell once and discards it; `final d` holds in the end if `d` is
copied. -/
def Snapshot (a : α) (final : D → σ → Prop) : Program Res α → σ → Prop :=
  Leads h cell copy (Copies h cell copy a final)

variable {h cell copy} {stop : Program Res α → σ → Prop} {a : α} {final : D → σ → Prop}
  {x : Program Res α} {s : σ} {d₀ : D}

/-- A part of the program that neither reads nor changes the cell. -/
inductive Silent (h : (op : Op) → σ → Option (Res op × σ)) (cell : Cell σ D W) (copy : Op → Bool)
    {β : Type} : Program Res β → σ → β → σ → Prop
  | pure (b : β) (s : σ) : Silent h cell copy (.pure b) s b s
  | op {op : Op} {next : Res op → Program Res β} {s t u : σ} {r : Res op} {b : β}
      (hc : copy op = false) (ho : ∀ d, h op (cell.put d s) = some (r, cell.put d t))
      (hn : Silent h cell copy (next r) t b u) : Silent h cell copy (.call op next) s b u

lemma Leads.bind {β : Type} {y : Program Res β} {f : β → Program Res α} {b : β} {t : σ}
    (hy : Silent h cell copy y s b t) (hf : Leads h cell copy stop (f b) t) :
    Leads h cell copy stop (y >>= f) s := by
  change Leads h cell copy stop (y.bind f) s
  induction hy with
  | pure b s => exact hf
  | op hc ho _ ih => exact .op hc ho (ih hf)

lemma Silent.perform {op : Op} {r : Res op} {t : σ} (hc : copy op = false)
    (ho : ∀ d, h op (cell.put d s) = some (r, cell.put d t)) :
    Silent h cell copy (Program.perform op) s r t := .op hc ho (.pure r t)

lemma Leads.not_pure (hs : ∀ b s, ¬stop (.pure b) s) (b : α) : ¬Leads h cell copy stop (.pure b) s := by
  intro hl
  cases hl with
  | here hst => exact hs b s hst

/-- Where the program is after the steps `tr`. -/
inductive Phase (h : (op : Op) → σ → Option (Res op × σ)) (cell : Cell σ D W) (copy : Op → Bool)
    (a : α) (final : D → σ → Prop) (d₀ : D)
    (tr : List ((Program Res α × σ) × Contention Op W)) : Program Res α × σ → Prop
  | before {y : Program Res α} {b : σ} {e : D} (hn : ∀ x ∈ tr, x.2.isCopy copy = false)
      (hl : Leads h cell copy (Copies h cell copy a final) y b)
      (he : e = cell.value d₀ (writes tr)) :
      Phase h cell copy a final d₀ tr (y, cell.put e b)
  | between {y : Program Res α} {b : σ} {e : D} (hc : ∃ x ∈ tr, x.2.isCopy copy = true)
      (hl : Leads h cell copy
        (Discards h cell copy a (final (cell.value d₀ (writesBefore copy tr)))) y b) :
      Phase h cell copy a final d₀ tr (y, cell.put e b)
  | after {t : σ} (hc : ∃ x ∈ tr, x.2.isCopy copy = true) (hg : cell.get t = none)
      (hf : final (cell.value d₀ (writesBefore copy tr)) t) :
      Phase h cell copy a final d₀ tr (.pure a, t)

section Steps

variable {tr : List ((Program Res α × σ) × Contention Op W)} {c c' : Program Res α × σ}

lemma Phase.write {w : W} {e : D} {y : Program Res α} {t : σ}
    (hp : Phase h cell copy a final d₀ tr (y, t)) (hd : cell.get t = some e) :
    Phase h cell copy a final d₀ (tr ++ [((y, t), .write w)]) (y, cell.put (cell.apply w e) t) := by
  cases hp with
  | before hn hl he =>
    rw [cell.get_put] at hd
    obtain rfl := Option.some.inj hd
    rw [cell.put_put]
    refine .before ?_ hl ?_
    · intro x hx
      rcases List.mem_append.mp hx with hx | hx
      · exact hn x hx
      · obtain rfl := List.mem_singleton.mp hx
        rfl
    · rw [he, writes_append, Cell.value_append]
      rfl
  | between hc hl =>
    rw [cell.put_put]
    refine .between ?_ ?_
    · obtain ⟨x, hx, hcx⟩ := hc
      exact ⟨x, List.mem_append_left _ hx, hcx⟩
    · rwa [writesBefore_snoc_of_copied hc]
  | after hc hg hf => simp [hg] at hd

lemma Phase.perform {op : Op} {next : Res op → Program Res α} {s t : σ} {r : Res op}
    (hp : Phase h cell copy a final d₀ tr (.call op next, s)) (ho : h op s = some (r, t)) :
    Phase h cell copy a final d₀ (tr ++ [((.call op next, s), .perform op)]) (next r, t) := by
  have hlast {c : Program Res α × σ} {op : Op} : writes (tr ++ [(c, Contention.perform op)]) =
      (writes tr : List W) := by
    rw [writes_append]
    exact List.append_nil _
  cases hp with
  | before hn hl he =>
    cases hl with
    | here hstop =>
      obtain ⟨op', next', answer, heq, hcopy, hans, hleads⟩ := hstop
      cases heq
      rw [hans] at ho
      cases ho
      refine .between ⟨_, List.mem_append_right _ (List.mem_singleton.mpr rfl), hcopy⟩ ?_
      rw [(split_at_copy hn hcopy _ []).1, ← he]
      exact hleads _
    | op hc hop hn' =>
      rw [hop] at ho
      cases ho
      refine .before ?_ hn' (by rw [hlast, he])
      intro x hx
      rcases List.mem_append.mp hx with hx | hx
      · exact hn x hx
      · obtain rfl := List.mem_singleton.mp hx
        exact hc
  | between hc hl =>
    have hc' : ∀ y, ∃ x ∈ tr ++ [y], x.2.isCopy copy = true := by
      obtain ⟨x, hx, hcx⟩ := hc
      exact fun y => ⟨x, List.mem_append_left _ hx, hcx⟩
    cases hl with
    | here hstop =>
      obtain ⟨op', next', r', t', heq, -, hdisc, hret, hget, hfinal⟩ := hstop
      cases heq
      rw [hdisc] at ho
      cases ho
      rw [hret]
      refine .after (hc' _) hget ?_
      rwa [writesBefore_snoc_of_copied hc]
    | op _ hop hn' =>
      rw [hop] at ho
      cases ho
      refine .between (hc' _) ?_
      rwa [writesBefore_snoc_of_copied hc]

lemma Snapshot.phase (hx : Snapshot h cell copy a final x s)
    (hr : Run (Contended h cell) (x, cell.put d₀ s) tr c) : Phase h cell copy a final d₀ tr c := by
  induction hr with
  | nil => exact .before (fun _ hx => absurd hx List.not_mem_nil) hx rfl
  | snoc _ hs ih =>
    cases hs with
    | perform ho => exact ih.perform ho
    | write hd => exact ih.write hd

/-- The outcome of a run that has come to its end is that of the copy. -/
theorem Snapshot.outcome (hx : Snapshot h cell copy a final x s) {b : α} {t : σ}
    (hr : Run (Contended h cell) (x, cell.put d₀ s) tr (.pure b, t)) :
    final (cell.value d₀ (writesBefore copy tr)) t := by
  have hp := hx.phase hr
  cases hp with
  | before hn hl he =>
    refine absurd hl (Leads.not_pure ?_ b)
    rintro b s ⟨op, next, answer, heq, -⟩
    cases heq
  | between hc hl =>
    refine absurd hl (Leads.not_pure ?_ b)
    rintro b s ⟨op, next, r, t, heq, -⟩
    cases heq
  | after hc hg hf => exact hf

lemma Leads.run (hl : Leads h cell copy stop x s) (d : D) :
    ∃ tr y b, Run (Contended h cell) (x, cell.put d s) tr (y, cell.put d b) ∧ stop y b ∧
      writes tr = [] ∧ ∀ z ∈ tr, z.2.isCopy copy = false := by
  induction hl with
  | here hs => exact ⟨[], _, _, .nil, hs, rfl, by simp⟩
  | op hc ho _ ih =>
    obtain ⟨tr, y, b, hr, hst, hw, hn⟩ := ih
    refine ⟨_, y, b, Run.cons (.perform (ho d)) hr, hst, hw, ?_⟩
    intro z hz
    rcases List.mem_cons.mp hz with rfl | hz
    · exact hc
    · exact hn z hz

variable (h cell copy) in
/-- The cell may be written to at any time while it is there. -/
lemma run_writes (x : Program Res α) (d : D) (s : σ) (ws : List W) :
    ∃ tr, Run (Contended h cell) (x, cell.put d s) tr (x, cell.put (cell.value d ws) s) ∧
      writes tr = ws ∧ ∀ z ∈ tr, z.2.isCopy copy = false := by
  induction ws generalizing d with
  | nil => exact ⟨[], .nil, rfl, by simp⟩
  | cons w ws ih =>
    obtain ⟨tr, hr, hw, hn⟩ := ih (cell.apply w d)
    have hfirst : Contended h cell (x, cell.put d s) (.write w) (x, cell.put (cell.apply w d) s) := by
      have hs := Contended.write (h := h) (x := x) (w := w) (cell.get_put d s)
      rwa [cell.put_put] at hs
    refine ⟨_, hr.cons hfirst, congrArg (w :: ·) hw, ?_⟩
    intro z hz
    rcases List.mem_cons.mp hz with rfl | hz
    · rfl
    · exact hn z hz

/-- Whatever is written before and after the copy, the program comes to its end. -/
theorem Snapshot.window (hx : Snapshot h cell copy a final x s) (d : D) (ws ws' : List W) :
    ∃ tr t, Run (Contended h cell) (x, cell.put d s) tr (.pure a, t) ∧
      writesBefore copy tr = ws ∧ writesAfter copy tr = ws' := by
  obtain ⟨tr₀, hr₀, hw₀, hn₀⟩ := run_writes h cell copy x d s ws
  set e := cell.value d ws
  obtain ⟨tr₁, y, b, hr₁, ⟨op, next, answer, rfl, hcopy, hans, hleads⟩, hw₁, hn₁⟩ := hx.run e
  obtain ⟨tr₂, hr₂, hw₂, -⟩ := run_writes h cell copy (next (answer e)) e b ws'
  obtain ⟨tr₃, z, b', hr₃, ⟨op', next', r, t, rfl, -, hdisc, hret, -, -⟩, hw₃, -⟩ :=
    (hleads e).run (cell.value e ws')
  have hcopied : Contended h cell (.call op next, cell.put e b) (.perform op)
      (next (answer e), cell.put e b) := .perform (hans e)
  have hend : Contended h cell (.call op' next', cell.put (cell.value e ws') b') (.perform op')
      (.pure a, t) := hret ▸ .perform (hdisc _)
  have hr := (hr₀.append hr₁).append (((hr₂.append hr₃).snoc hend).cons hcopied)
  have hn : ∀ x ∈ tr₀ ++ tr₁, x.2.isCopy copy = false :=
    List.forall_mem_append.mpr ⟨hn₀, hn₁⟩
  refine ⟨_, t, hr, ?_, ?_⟩
  · rw [(split_at_copy hn hcopy _ _).1, writes_append, hw₀, hw₁, List.append_nil]
  · rw [(split_at_copy hn hcopy _ _).2, writes_append, writes_append, hw₂, hw₃]
    simp [writes]

end Steps

end Programs

end Interaction
