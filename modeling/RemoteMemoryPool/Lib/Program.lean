import RemoteMemoryPool.Lib.Runs
import Mathlib.Logic.Function.Basic

/-!
# Programs of atomic operations

A `Program Res α` is a sequential program that performs atomic operations `op`, each
answered by a value of `Res op`, and returns a value of `α`. One program text has three
readings: `run` executes it alone against a total handler, `runPartial` against a handler
that may block or abort, and `Pool.Step` interleaves its operations with those of other
threads.
-/

namespace Interaction

open Transition

variable {Op : Type} {Res : Op → Type} {σ α β : Type}

/-- A sequential program over the atomic operations `Op`. -/
inductive Program (Res : Op → Type) (α : Type) : Type
  | pure (a : α) : Program Res α
  | call (op : Op) (next : Res op → Program Res α) : Program Res α

namespace Program

def bind : Program Res α → (α → Program Res β) → Program Res β
  | .pure a, f => f a
  | .call op next, f => .call op (fun r => (next r).bind f)

instance : Monad (Program Res) where
  pure := Program.pure
  bind := Program.bind

protected lemma bind_assoc {γ : Type} (x : Program Res α) (f : α → Program Res β)
    (g : β → Program Res γ) : x >>= f >>= g = x >>= fun a => f a >>= g := by
  change (x.bind f).bind g = x.bind (fun a => (f a).bind g)
  induction x with
  | pure a => rfl
  | call op next ih => exact congrArg (Program.call op) (funext ih)

def perform (op : Op) : Program Res (Res op) := .call op .pure

/-- Execution by a handler that always answers. -/
def run (h : (op : Op) → σ → Res op × σ) : Program Res α → σ → α × σ
  | .pure a, s => (a, s)
  | .call op next, s => run h (next (h op s).1) (h op s).2

/-- The operations an execution performs, each with the state it is performed in. -/
def performed (h : (op : Op) → σ → Res op × σ) : Program Res α → σ → List (σ × Op)
  | .pure _, _ => []
  | .call op next, s => (s, op) :: performed h (next (h op s).1) (h op s).2

/-- Execution by a handler that may refuse an operation. -/
def runPartial (h : (op : Op) → σ → Option (Res op × σ)) : Program Res α → σ → Option (α × σ)
  | .pure a, s => some (a, s)
  | .call op next, s => (h op s).bind (fun x => runPartial h (next x.1) x.2)

/-- The operations an execution by such a handler performs, up to the one that is refused. -/
def performedPartial (h : (op : Op) → σ → Option (Res op × σ)) : Program Res α → σ → List (σ × Op)
  | .pure _, _ => []
  | .call op next, s =>
    (s, op) :: (h op s).elim [] (fun x => performedPartial h (next x.1) x.2)

/-- The program with each operation replaced by a program over other operations. -/
def interpret {Op' : Type} {Res' : Op' → Type} (f : (op : Op) → Program Res' (Res op)) :
    Program Res α → Program Res' α
  | .pure a => .pure a
  | .call op next => (f op).bind (fun r => interpret f (next r))

/-- Every operation the program may perform, whatever the answers, satisfies `P`. -/
def OnlyPerforms (P : Op → Prop) : Program Res α → Prop
  | .pure _ => True
  | .call op next => P op ∧ ∀ r, OnlyPerforms P (next r)

lemma OnlyPerforms.pure {P : Op → Prop} (a : α) :
    OnlyPerforms P (Pure.pure a : Program Res α) := trivial

lemma OnlyPerforms.bind {P : Op → Prop} {x : Program Res α} {f : α → Program Res β}
    (hx : x.OnlyPerforms P) (hf : ∀ a, (f a).OnlyPerforms P) : (x >>= f).OnlyPerforms P := by
  change (x.bind f).OnlyPerforms P
  induction x with
  | pure a => exact hf a
  | call op next ih => exact ⟨hx.1, fun r => ih r (hx.2 r)⟩

lemma OnlyPerforms.performed {P : Op → Prop} (h : (op : Op) → σ → Res op × σ)
    {x : Program Res α} (hx : x.OnlyPerforms P) (s : σ) : ∀ y ∈ x.performed h s, P y.2 := by
  induction x generalizing s with
  | pure a => simp [Program.performed]
  | call op next ih =>
    simp only [Program.performed, List.forall_mem_cons]
    exact ⟨hx.1, ih _ (hx.2 _) _⟩

lemma OnlyPerforms.performedPartial {P : Op → Prop} (h : (op : Op) → σ → Option (Res op × σ))
    {x : Program Res α} (hx : x.OnlyPerforms P) (s : σ) : ∀ y ∈ x.performedPartial h s, P y.2 := by
  induction x generalizing s with
  | pure a => simp [Program.performedPartial]
  | call op next ih =>
    rw [Program.performedPartial, List.forall_mem_cons]
    refine ⟨hx.1, ?_⟩
    cases h op s with
    | none => simp
    | some y => exact ih y.1 (hx.2 y.1) y.2

lemma OnlyPerforms.mono {P Q : Op → Prop} (hPQ : ∀ op, P op → Q op) {x : Program Res α}
    (hx : x.OnlyPerforms P) : x.OnlyPerforms Q := by
  induction x with
  | pure a => trivial
  | call op next ih => exact ⟨hPQ op hx.1, fun r => ih r (hx.2 r)⟩

/-- A reflexive and transitive relation that holds across every operation of a program holds
across its execution. -/
lemma OnlyPerforms.runPartial {P : Op → Prop} (h : (op : Op) → σ → Option (Res op × σ))
    {R : σ → σ → Prop} (hrefl : ∀ s, R s s) (htrans : ∀ s t u, R s t → R t u → R s u)
    (hop : ∀ op, P op → ∀ s r t, h op s = some (r, t) → R s t) {x : Program Res α}
    (hx : x.OnlyPerforms P) {s t : σ} {a : α} (hrun : x.runPartial h s = some (a, t)) : R s t := by
  induction x generalizing s with
  | pure b =>
    obtain ⟨-, rfl⟩ : b = a ∧ s = t := by simpa [Program.runPartial] using hrun
    exact hrefl s
  | call op next ih =>
    obtain ⟨⟨r, u⟩, hr, hnext⟩ := Option.bind_eq_some_iff.mp hrun
    exact htrans s u t (hop op hx.1 s r u hr) (ih r (hx.2 r) hnext)

/-- The program keeps to the automaton `δ` from state `q` on: whatever an operation answers, it
has a transition, and `post` holds of what is returned and the state reached. -/
def Follows {Q : Type} (δ : Q → (op : Op) → Res op → Q → Prop) :
    Program Res α → Q → (α → Q → Prop) → Prop
  | .pure a, q, post => post a q
  | .call op next, q, post => ∀ r, ∃ q', δ q op r q' ∧ Follows δ (next r) q' post

section Follows

variable {Q : Type} {δ : Q → (op : Op) → Res op → Q → Prop}

@[simp] lemma follows_pure (a : α) (q : Q) (post : α → Q → Prop) :
    Follows δ (Pure.pure a : Program Res α) q post ↔ post a q := Iff.rfl

@[simp] lemma follows_bind (x : Program Res α) (f : α → Program Res β) (q : Q)
    (post : β → Q → Prop) :
    Follows δ (x >>= f) q post ↔ Follows δ x q (fun a q' => Follows δ (f a) q' post) := by
  change Follows δ (x.bind f) q post ↔ _
  induction x generalizing q with
  | pure a => rfl
  | call op next ih =>
    apply forall_congr'
    intro r
    apply exists_congr
    intro q'
    exact and_congr_right (fun _ => ih r q')

@[simp] lemma follows_ite (p : Prop) [Decidable p] (x y : Program Res α) (q : Q)
    (post : α → Q → Prop) :
    Follows δ (if p then x else y) q post ↔ (p → x.Follows δ q post) ∧ (¬p → y.Follows δ q post) := by
  by_cases hp : p <;> simp [hp]

lemma follows_perform_of_stay {op : Op} {q : Q} (hstay : ∀ r q', δ q op r q' ↔ q' = q)
    (post : Res op → Q → Prop) : (perform op).Follows δ q post ↔ ∀ r, post r q := by
  apply forall_congr'
  intro r
  constructor
  · rintro ⟨q', hq, hpost⟩
    obtain rfl := (hstay r q').mp hq
    exact hpost
  · intro hpost
    exact ⟨q, (hstay r q).mpr rfl, hpost⟩

lemma Follows.mono {x : Program Res α} {q : Q} {post post' : α → Q → Prop}
    (hx : x.Follows δ q post) (hpost : ∀ a q', post a q' → post' a q') : x.Follows δ q post' := by
  induction x generalizing q with
  | pure a => exact hpost a q hx
  | call op next ih =>
    intro r
    obtain ⟨q', hq, hnext⟩ := hx r
    exact ⟨q', hq, ih r hnext⟩

/-- The program keeps to the automaton and returns in the state it starts in. -/
def Keeps (δ : Q → (op : Op) → Res op → Q → Prop) (q : Q) (x : Program Res α) : Prop :=
  x.Follows δ q (fun _ q' => q' = q)

lemma Keeps.follows {x : Program Res α} {q : Q} (hx : x.Keeps δ q) {post : α → Q → Prop}
    (hpost : ∀ a, post a q) : x.Follows δ q post := by
  apply Follows.mono hx
  rintro a q' rfl
  exact hpost a

/-- What holds of the state of the automaton and that of the handler, and is kept by every
operation, holds when an execution has ended. -/
lemma Follows.runPartial {h : (op : Op) → σ → Option (Res op × σ)} {I : Q → σ → Prop}
    (hop : ∀ {op q q' s r t}, I q s → h op s = some (r, t) → δ q op r q' → I q' t)
    {x : Program Res α} {q : Q} {post : α → Q → Prop} (hx : x.Follows δ q post) {s t : σ} {a : α}
    (hI : I q s) (hrun : x.runPartial h s = some (a, t)) : ∃ q', I q' t ∧ post a q' := by
  induction x generalizing q s with
  | pure b =>
    obtain ⟨rfl, rfl⟩ : b = a ∧ s = t := by simpa [Program.runPartial] using hrun
    exact ⟨q, hI, hx⟩
  | call op next ih =>
    obtain ⟨⟨r, u⟩, hr, hnext⟩ := Option.bind_eq_some_iff.mp hrun
    obtain ⟨q', hq, hfollows⟩ := hx r
    exact ih r hfollows (hop hI hr hq) hnext

lemma Keeps.runPartial {h : (op : Op) → σ → Option (Res op × σ)} {I : Q → σ → Prop}
    (hop : ∀ {op q q' s r t}, I q s → h op s = some (r, t) → δ q op r q' → I q' t)
    {x : Program Res α} {q : Q} (hx : x.Keeps δ q) {s t : σ} {a : α} (hI : I q s)
    (hrun : x.runPartial h s = some (a, t)) : I q t := by
  obtain ⟨q', hI', rfl⟩ := Follows.runPartial hop hx hI hrun
  exact hI'

end Follows

/-- Whatever its operations answer, the program returns a value with `P`. -/
def Returns (P : α → Prop) : Program Res α → Prop
  | .pure a => P a
  | .call _ next => ∀ r, Returns P (next r)

@[simp] lemma returns_pure (P : α → Prop) (a : α) :
    Returns P (Pure.pure a : Program Res α) ↔ P a := Iff.rfl

@[simp] lemma returns_bind (P : β → Prop) (x : Program Res α) (f : α → Program Res β) :
    Returns P (x >>= f) ↔ Returns (fun a => Returns P (f a)) x := by
  change Returns P (x.bind f) ↔ _
  induction x with
  | pure a => rfl
  | call op next ih => exact forall_congr' ih

lemma returns_any (x : Program Res α) : x.Returns (fun _ => True) := by
  induction x with
  | pure a => trivial
  | call op next ih => exact fun r => ih r

lemma Returns.mono {P P' : α → Prop} {x : Program Res α} (hx : x.Returns P)
    (hP : ∀ a, P a → P' a) : x.Returns P' := by
  induction x with
  | pure a => exact hP a hx
  | call op next ih => exact fun r => ih r (hx r)

lemma Returns.run {P : α → Prop} {x : Program Res α} (hx : x.Returns P)
    (h : (op : Op) → σ → Res op × σ) (s : σ) : P (x.run h s).1 := by
  induction x generalizing s with
  | pure a => exact hx
  | call op next ih => exact ih _ (hx _) _

/-- As long as its operations get answers with `A`, the program performs operations with `G` only,
and `post` holds of what it returns. -/
def Abides (G : Op → Prop) (A : (op : Op) → Res op → Prop) : Program Res α → (α → Prop) → Prop
  | .pure a, post => post a
  | .call op next, post => G op ∧ ∀ r, A op r → Abides G A (next r) post

section Abides

variable {G : Op → Prop} {A : (op : Op) → Res op → Prop}

@[simp] lemma abides_pure (a : α) (post : α → Prop) :
    Abides G A (Pure.pure a : Program Res α) post ↔ post a := Iff.rfl

@[simp] lemma abides_perform (op : Op) (post : Res op → Prop) :
    Abides G A (perform op) post ↔ G op ∧ ∀ r, A op r → post r := Iff.rfl

@[simp] lemma abides_bind (x : Program Res α) (f : α → Program Res β) (post : β → Prop) :
    Abides G A (x >>= f) post ↔ Abides G A x (fun a => Abides G A (f a) post) := by
  change Abides G A (x.bind f) post ↔ _
  induction x with
  | pure a => rfl
  | call op next ih => exact and_congr_right (fun _ => forall₂_congr (fun r _ => ih r))

@[simp] lemma abides_ite (p : Prop) [Decidable p] (x y : Program Res α) (post : α → Prop) :
    Abides G A (if p then x else y) post ↔
      (p → Abides G A x post) ∧ (¬p → Abides G A y post) := by
  by_cases hp : p <;> simp [hp]

lemma Abides.mono {x : Program Res α} {post post' : α → Prop} (hx : x.Abides G A post)
    (hpost : ∀ a, post a → post' a) : x.Abides G A post' := by
  induction x with
  | pure a => exact hpost a hx
  | call op next ih => exact ⟨hx.1, fun r hr => ih r (hx.2 r hr)⟩

/-- An invariant of the handler that makes its answers have `A`. -/
lemma Abides.runPartial {h : (op : Op) → σ → Option (Res op × σ)} {I : σ → Prop}
    (hop : ∀ {op s r t}, G op → I s → h op s = some (r, t) → A op r ∧ I t) {x : Program Res α}
    {post : α → Prop} (hx : x.Abides G A post) {s t : σ} {a : α} (hI : I s)
    (hrun : x.runPartial h s = some (a, t)) : I t ∧ post a := by
  induction x generalizing s with
  | pure b =>
    obtain ⟨rfl, rfl⟩ : b = a ∧ s = t := by simpa [Program.runPartial] using hrun
    exact ⟨hI, hx⟩
  | call op next ih =>
    obtain ⟨⟨r, u⟩, hr, hnext⟩ := Option.bind_eq_some_iff.mp hrun
    obtain ⟨hA, hI'⟩ := hop hx.1 hI hr
    exact ih r (hx.2 r hA) hI' hnext

end Abides

/-- The program performs operations with `P` only, and goes on in the same way whether an
operation answers `r` or `e op r`. -/
def Unaware (P : Op → Prop) (e : (op : Op) → Res op → Res op) : Program Res α → Prop
  | .pure _ => True
  | .call op next => P op ∧ ∀ r, next (e op r) = next r ∧ Unaware P e (next r)

section Unaware

variable {P : Op → Prop} {e : (op : Op) → Res op → Res op}

lemma Unaware.pure (a : α) : Unaware P e (Pure.pure a : Program Res α) := trivial

lemma Unaware.bind {x : Program Res α} {f : α → Program Res β} (hx : x.Unaware P e)
    (hf : ∀ a, (f a).Unaware P e) : (x >>= f).Unaware P e := by
  change (x.bind f).Unaware P e
  induction x with
  | pure a => exact hf a
  | call op next ih =>
    refine ⟨hx.1, ?_⟩
    intro r
    obtain ⟨hsame, hnext⟩ := hx.2 r
    exact ⟨congrArg (fun y => Program.bind y f) hsame, ih r hnext⟩

lemma Unaware.call_bind {op : Op} (hop : P op) {f : Res op → Program Res β}
    (hf : ∀ r, f (e op r) = f r ∧ (f r).Unaware P e) : (perform op >>= f).Unaware P e :=
  ⟨hop, hf⟩

/-- A change of the state that only shows in answers the program does not look at goes through
its execution. -/
lemma Unaware.runPartial {h : (op : Op) → σ → Option (Res op × σ)} {f : σ → σ}
    (hop : ∀ op, P op → ∀ s, h op (f s) = (h op s).map (fun y => (e op y.1, f y.2)))
    {x : Program Res α} (hx : x.Unaware P e) (s : σ) :
    x.runPartial h (f s) = (x.runPartial h s).map (fun y => (y.1, f y.2)) := by
  induction x generalizing s with
  | pure a => rfl
  | call op next ih =>
    simp only [Program.runPartial, hop op hx.1 s]
    cases h op s with
    | none => rfl
    | some y =>
      obtain ⟨hsame, hnext⟩ := hx.2 y.1
      simp only [Option.map_some, Option.bind_some, hsame]
      exact ih y.1 hnext y.2

end Unaware

section Laws

variable (h : (op : Op) → σ → Res op × σ) (hp : (op : Op) → σ → Option (Res op × σ))

@[simp] lemma run_pure (a : α) (s : σ) : run h (Pure.pure a : Program Res α) s = (a, s) := rfl

@[simp] lemma run_perform (op : Op) (s : σ) : run h (perform op) s = h op s := rfl

@[simp] lemma run_bind (x : Program Res α) (f : α → Program Res β) (s : σ) :
    run h (x >>= f) s = run h (f (run h x s).1) (run h x s).2 := by
  change run h (x.bind f) s = _
  induction x generalizing s with
  | pure a => rfl
  | call op next ih => exact ih _ _

lemma run_ite (p : Prop) [Decidable p] (x y : Program Res α) (s : σ) :
    run h (if p then x else y) s = if p then run h x s else run h y s := by
  split <;> rfl

@[simp] lemma performed_pure (a : α) (s : σ) :
    performed h (Pure.pure a : Program Res α) s = [] := rfl

@[simp] lemma performed_perform (op : Op) (s : σ) :
    performed h (perform op) s = [(s, op)] := rfl

@[simp] lemma performed_bind (x : Program Res α) (f : α → Program Res β) (s : σ) :
    performed h (x >>= f) s =
      performed h x s ++ performed h (f (run h x s).1) (run h x s).2 := by
  change performed h (x.bind f) s = _
  induction x generalizing s with
  | pure a => rfl
  | call op next ih =>
    simp only [bind, performed, run, List.cons_append, List.cons.injEq, true_and]
    exact ih _ _

@[simp] lemma runPartial_pure (a : α) (s : σ) :
    runPartial hp (Pure.pure a : Program Res α) s = some (a, s) := rfl

@[simp] lemma runPartial_perform (op : Op) (s : σ) : runPartial hp (perform op) s = hp op s := by
  change (hp op s).bind _ = _
  cases hp op s <;> rfl

@[simp] lemma runPartial_bind (x : Program Res α) (f : α → Program Res β) (s : σ) :
    runPartial hp (x >>= f) s =
      (runPartial hp x s).bind (fun y => runPartial hp (f y.1) y.2) := by
  change runPartial hp (x.bind f) s = _
  induction x generalizing s with
  | pure a => rfl
  | call op next ih =>
    simp only [bind, runPartial]
    cases hp op s with
    | none => rfl
    | some y => exact ih _ _

@[simp] lemma performedPartial_pure (a : α) (s : σ) :
    performedPartial hp (Pure.pure a : Program Res α) s = [] := rfl

@[simp] lemma performedPartial_perform (op : Op) (s : σ) :
    performedPartial hp (perform op) s = [(s, op)] := by
  change (s, op) :: (hp op s).elim [] _ = _
  cases hp op s <;> rfl

@[simp] lemma performedPartial_bind (x : Program Res α) (f : α → Program Res β) (s : σ) :
    performedPartial hp (x >>= f) s = performedPartial hp x s ++
      (runPartial hp x s).elim [] (fun y => performedPartial hp (f y.1) y.2) := by
  change performedPartial hp (x.bind f) s = _
  induction x generalizing s with
  | pure a => rfl
  | call op next ih =>
    simp only [bind, performedPartial, runPartial]
    cases hp op s with
    | none => rfl
    | some y => exact congrArg ((s, op) :: ·) (ih _ _)

end Laws

end Program

variable {ι : Type}

/-- Threads that share a state; `threads i` is what thread `i` still has to do. -/
structure Pool (ι : Type) (Res : Op → Type) (σ α : Type) where
  threads : ι → Program Res α
  state : σ

/-- One operation of one thread, with its answer. -/
structure Action (ι : Type) (Res : Op → Type) where
  thread : ι
  op : Op
  answer : Res op

/-- Thread `a.thread` performs its next operation; `sem` says which answers and which
next states the shared state allows. An operation without an answer blocks its thread. -/
def Pool.Step [DecidableEq ι] (sem : ι → (op : Op) → σ → Res op → σ → Prop)
    (c : Pool ι Res σ α) (a : Action ι Res) (c' : Pool ι Res σ α) : Prop :=
  ∃ next, c.threads a.thread = .call a.op next ∧ sem a.thread a.op c.state a.answer c'.state ∧
    c'.threads = Function.update c.threads a.thread (next a.answer)

/-- A thread that keeps to an automaton makes one of its transitions and keeps to it from
there on; the other threads are not affected. -/
lemma Pool.Step.follows [DecidableEq ι] {Q : Type} {δ : ι → Q → (op : Op) → Res op → Q → Prop}
    {sem : ι → (op : Op) → σ → Res op → σ → Prop} {c c' : Pool ι Res σ α} {a : Action ι Res}
    {q : ι → Q} {post : α → Q → Prop} (hs : c.Step sem a c')
    (hc : ∀ i, (c.threads i).Follows (δ i) (q i) post) :
    ∃ q', δ a.thread (q a.thread) a.op a.answer q' ∧
      ∀ i, (c'.threads i).Follows (δ i) (Function.update q a.thread q' i) post := by
  obtain ⟨next, hthread, -, hthreads⟩ := hs
  have hcall := hc a.thread
  rw [hthread] at hcall
  obtain ⟨q', hq, hnext⟩ := hcall a.answer
  refine ⟨q', hq, ?_⟩
  intro i
  rw [hthreads]
  by_cases hi : i = a.thread
  · subst hi
    simpa using hnext
  · simpa [hi] using hc i

lemma Pool.Step.returns [DecidableEq ι] {sem : ι → (op : Op) → σ → Res op → σ → Prop}
    {P : ι → α → Prop} {c c' : Pool ι Res σ α} {a : Action ι Res} (hs : c.Step sem a c')
    (hc : ∀ i, (c.threads i).Returns (P i)) : ∀ i, (c'.threads i).Returns (P i) := by
  obtain ⟨next, hthread, -, hthreads⟩ := hs
  have hcall := hc a.thread
  rw [hthread] at hcall
  intro i
  rw [hthreads]
  by_cases hi : i = a.thread
  · subst hi
    rw [Function.update_self]
    exact hcall a.answer
  · rw [Function.update_of_ne hi]
    exact hc i

end Interaction
