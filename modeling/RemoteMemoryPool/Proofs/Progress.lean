import RemoteMemoryPool.Proofs.Exclusion
import RemoteMemoryPool.Proofs.Replies

/-!
# No thread is stuck

A thread of the client blocks when it locks `fault_handler_cr` while the flag is set and when it
receives while no reply is there. The scope of the `lock_guard` in `malloc` clears the flag too
often, never too rarely: while the flag is set, the thread that set it is inside. Every thread
that waits for a reply has a request or a reply on the line. So the holder can always be run to
its release, and every thread can go on.
-/

namespace RemoteMemoryPool.Proofs

open Interaction Transition Locking

/-- Whether a thread is inside, and whether it has sent a request and not received a reply. -/
structure WaitState where
  held : Bool
  waiting : Bool

def WaitState.idle : WaitState := ⟨false, false⟩

def WaitPhase (q : WaitState) (op : ClientOp) (_ : op.Res) (q' : WaitState) : Prop :=
  lockPhase q.held op = some q'.held ∧ socketPhase q.waiting op = some q'.waiting

section Steps

variable {ι : Type} [DecidableEq ι] {tid : ι → Nat}

/-- While the flag is set some thread is inside, and there are as many threads that wait for a
reply as there are packets on the line. -/
structure Accounted (c : Process ι) (q : ι → WaitState) : Prop where
  follows : ∀ i, (c.threads i).Follows WaitPhase (q i) (fun _ q => q = .idle)
  held : c.state.locked = true → ∃ i, (q i).held = true
  line : ∃ l : List ι, l.Nodup ∧ (∀ i, i ∈ l ↔ (q i).waiting = true) ∧
    l.length = c.state.requests.length + c.state.replies.length

variable {c c' : Process ι} {q : ι → WaitState}

lemma Accounted.serve {os : Os} (h : Accounted c q) (hs : Process.Step tid c (.serve os) c') :
    Accounted c' q := by
  obtain ⟨hthreads, request, rest, hreq, -, hstate⟩ := hs
  obtain ⟨l, hnodup, hmem, hlen⟩ := h.line
  constructor
  · rw [hthreads]
    exact h.follows
  · rw [hstate]
    exact h.held
  · refine ⟨l, hnodup, hmem, ?_⟩
    rw [hlen, hstate, hreq]
    simp only [List.length_cons, List.length_append, List.length_nil]
    omega

lemma Accounted.held_step {i : ι} {op : ClientOp} {r : op.Res} {q' : WaitState} (h : Accounted c q)
    (hphase : WaitPhase (q i) op r q') (heff : op.Effect (tid i) c.state r c'.state)
    (hl : c'.state.locked = true) : ∃ j, (Function.update q i q' j).held = true := by
  rcases lockStep_cases (.act ⟨i, op, r⟩ : ProcessEvent ι) with ⟨hnone, -⟩ | ⟨k, hk⟩ | ⟨k, site, hk⟩
  · rw [locked_of_lockStep_none hnone heff] at hl
    obtain ⟨j, hj⟩ := h.held hl
    refine ⟨j, ?_⟩
    by_cases hji : j = i
    · subst hji
      have hsame := phase_of_lockStep_none hnone (q j).held
      rw [Function.update_self, ← hj]
      exact (Option.some.inj (hsame.symm.trans hphase.1)).symm
    · rwa [Function.update_of_ne hji]
  · obtain ⟨rfl, rfl, -⟩ : i = k ∧ op = .lock ∧ True := by cases hk; exact ⟨rfl, rfl, trivial⟩
    refine ⟨i, ?_⟩
    rw [Function.update_self]
    exact (phase_lock hphase.1).2
  · obtain ⟨rfl, rfl, -⟩ : i = k ∧ op = .unlock site ∧ True := by cases hk; exact ⟨rfl, rfl, trivial⟩
    have hfree : c'.state.locked = false := by rw [heff]
    rw [hfree] at hl
    cases hl

lemma socket_cases (op : ClientOp) : (∃ p, op = .send p) ∨ op = .recv ∨ OffSocket op := by
  cases op with
  | send p => exact Or.inl ⟨p, rfl⟩
  | recv => exact Or.inr (Or.inl rfl)
  | _ => exact Or.inr (Or.inr trivial)

lemma Accounted.line_step {i : ι} {op : ClientOp} {r : op.Res} {q' : WaitState} (h : Accounted c q)
    (hphase : WaitPhase (q i) op r q') (heff : op.Effect (tid i) c.state r c'.state) :
    ∃ l : List ι, l.Nodup ∧ (∀ j, j ∈ l ↔ (Function.update q i q' j).waiting = true) ∧
      l.length = c'.state.requests.length + c'.state.replies.length := by
  obtain ⟨l, hnodup, hmem, hlen⟩ := h.line
  have hother : ∀ j, j ≠ i → (j ∈ l ↔ (Function.update q i q' j).waiting = true) := by
    intro j hji
    rw [Function.update_of_ne hji]
    exact hmem j
  rcases socket_cases op with ⟨p, rfl⟩ | rfl | hop
  · -- the thread joins those that wait
    obtain ⟨hw, hw'⟩ := phase_send hphase.2
    refine ⟨i :: l, List.nodup_cons.mpr ⟨by simp [hmem, hw], hnodup⟩, ?_, ?_⟩
    · intro j
      by_cases hji : j = i
      · simp [hji, hw']
      · simpa [hji] using hother j hji
    · rw [heff]
      simp only [List.length_cons, List.length_append, List.length_nil]
      omega
  · -- the thread leaves them with the first reply
    obtain ⟨hw, hw'⟩ := phase_recv hphase.2
    obtain ⟨reply, rest, hreplies, -, hstate⟩ := heff
    refine ⟨l.erase i, hnodup.erase i, ?_, ?_⟩
    · intro j
      by_cases hji : j = i
      · simp [hji, hw', hnodup.mem_erase_iff]
      · rw [hnodup.mem_erase_iff, ← hother j hji]
        simp [hji]
    · rw [List.length_erase_of_mem ((hmem i).mpr hw), hlen, hstate, hreplies, List.length_cons]
      dsimp only
      omega
  · obtain ⟨-, hreq, hrep⟩ := effect_offSocket hop heff
    have hsame : (q i).waiting = q'.waiting := by
      have hstay := socketPhase_offSocket hop (q i).waiting
      exact Option.some.inj (hstay.symm.trans hphase.2)
    refine ⟨l, hnodup, ?_, by rw [hreq, hrep, hlen]⟩
    intro j
    by_cases hji : j = i
    · subst hji
      rw [Function.update_self, ← hsame]
      exact hmem j
    · exact hother j hji

lemma Accounted.act {i : ι} {op : ClientOp} {r : op.Res} (h : Accounted c q)
    (hs : Process.Step tid c (.act ⟨i, op, r⟩) c') :
    ∃ q', WaitPhase (q i) op r q' ∧ Accounted c' (Function.update q i q') := by
  have hstep : Pool.Step (fun i op => op.Effect (tid i)) c ⟨i, op, r⟩ c' := hs
  obtain ⟨q', hphase, hfollows⟩ := hstep.follows (δ := fun _ => WaitPhase) h.follows
  obtain ⟨next, -, heff, -⟩ := hstep
  exact ⟨q', hphase, hfollows, h.held_step hphase heff, h.line_step hphase heff⟩

/-! ### Blocked threads -/

/-- A thread of the process has come to the end of the process. -/
def Exits (c : Process ι) : Prop := ∃ i next, c.threads i = .call .terminate next

/-- The only operations that block. -/
lemma blocked_cases {t : Nat} {op : ClientOp} {s : Shared} (h : op.succeed t s = none) :
    op = .terminate ∨ (op = .lock ∧ s.locked = true) ∨ (op = .recv ∧ s.replies = []) := by
  cases op with
  | terminate => exact Or.inl rfl
  | lock =>
    cases hl : s.locked with
    | true => exact Or.inr (Or.inl ⟨rfl, rfl⟩)
    | false => simp [ClientOp.succeed, hl] at h
  | recv =>
    cases hr : s.replies with
    | nil => exact Or.inr (Or.inr ⟨rfl, rfl⟩)
    | cons reply rest => simp [ClientOp.succeed, hr] at h
  | _ => cases h

/-- A thread that has not returned can perform its next operation, or it waits for the flag or
for a reply, or the process ends. -/
lemma thread_cases (tid : ι → Nat) (c : Process ι) {i : ι} {op : ClientOp}
    {next : op.Res → ClientM Unit} (hi : c.threads i = .call op next) :
    (∃ r c', Process.Step tid c (.act ⟨i, op, r⟩) c') ∨ op = .terminate ∨
      (op = .lock ∧ c.state.locked = true) ∨ (op = .recv ∧ c.state.replies = []) := by
  cases hsucc : op.succeed (tid i) c.state with
  | none => exact Or.inr (blocked_cases hsucc)
  | some x => exact Or.inl ⟨x.1, ⟨_, x.2⟩, next, hi, effect_of_succeed hsucc, rfl⟩

lemma Accounted.answer (tid : ι → Nat) (h : Accounted c q) {i : ι} {next : Packet → ClientM Unit}
    (hi : c.threads i = .call .recv next) (hr : c.state.replies = []) :
    ∃ os c', Process.Step tid c (.serve os) c' ∧ c'.threads = c.threads ∧ c'.state.replies ≠ [] := by
  obtain ⟨l, -, hmem, hlen⟩ := h.line
  have hwait : (q i).waiting = true := by
    have hfollows := h.follows i
    rw [hi] at hfollows
    obtain ⟨q', hphase, -⟩ := hfollows ⟨0, 0, 0, 0, 0, zeroPage, 0⟩
    exact (phase_recv hphase.2).1
  have hpos := List.length_pos_of_mem ((hmem i).mpr hwait)
  cases hreq : c.state.requests with
  | nil =>
    rw [hlen, hreq, hr] at hpos
    simp at hpos
  | cons request rest =>
    cases hserve : c.state.serve with
    | none => simp [Shared.serve, hreq] at hserve
    | some s =>
      have hstep := serve_of_serve hserve
      refine ⟨refusingOs, ⟨c.threads, s⟩, ⟨rfl, hstep⟩, rfl, ?_⟩
      obtain ⟨-, -, -, -, rfl⟩ := hstep
      simp

omit [DecidableEq ι] in
lemma Accounted.not_held_of_lock (h : Accounted c q) {i : ι} {next : Unit → ClientM Unit}
    (hi : c.threads i = .call .lock next) : (q i).held = false := by
  have hfollows := h.follows i
  rw [hi] at hfollows
  obtain ⟨q', hphase, -⟩ := hfollows ()
  exact (phase_lock hphase.1).1

lemma unlock_of_phase {op : ClientOp} (h : lockPhase true op = some false) :
    ∃ site, op = .unlock site := by
  cases op with
  | unlock site => exact ⟨site, rfl⟩
  | _ => cases h

/-- A thread that is inside can be run until the flag is clear, by its own steps and those of the
server. -/
lemma Accounted.release (tid : ι → Nat) (h : Accounted c q) {j : ι} (hj : (q j).held = true) :
    ∃ tr c', Run (Process.Step tid) c tr c' ∧ (∃ q', Accounted c' q') ∧
      (∀ i, i ≠ j → c'.threads i = c.threads i) ∧ (c'.state.locked = false ∨ Exits c') := by
  generalize hx : c.threads j = x
  induction x generalizing c q with
  | pure a =>
    have hfollows := h.follows j
    rw [hx] at hfollows
    have hidle : q j = .idle := hfollows
    rw [hidle] at hj
    cases hj
  | call op next ih =>
    -- the step of `j` once it is possible
    have hgo : ∀ {d : Process ι}, Accounted d q → d.threads j = .call op next →
        (∃ r d', Process.Step tid d (.act ⟨j, op, r⟩) d') →
        ∃ tr c', Run (Process.Step tid) d tr c' ∧ (∃ q', Accounted c' q') ∧
          (∀ i, i ≠ j → c'.threads i = d.threads i) ∧ (c'.state.locked = false ∨ Exits c') := by
      rintro d hd hthread ⟨r, d', hs⟩
      obtain ⟨q', hphase, hd'⟩ := hd.act hs
      obtain ⟨next', hcall, heff, hthreads⟩ := id hs
      obtain ⟨-, rfl⟩ : op = op ∧ next = next' := by
        have heq := hthread.symm.trans hcall
        cases heq
        exact ⟨rfl, rfl⟩
      have hother : ∀ i, i ≠ j → d'.threads i = d.threads i := by
        intro i hij
        rw [hthreads, Function.update_of_ne hij]
      cases hheld : q'.held with
      | true =>
        obtain ⟨tr, c', hrun, haccounted, hsame, hend⟩ :=
          ih r hd' (by rw [Function.update_self, hheld]) (by rw [hthreads, Function.update_self])
        exact ⟨_, c', Run.cons hs hrun, haccounted, fun i hij => (hsame i hij).trans (hother i hij), hend⟩
      | false =>
        have hlock := hphase.1
        rw [hj, hheld] at hlock
        obtain ⟨site, rfl⟩ := unlock_of_phase hlock
        exact ⟨_, d', Run.single hs, ⟨_, hd'⟩, hother, Or.inl (by rw [heff])⟩
    rcases thread_cases tid c hx with hready | rfl | ⟨rfl, -⟩ | ⟨rfl, hempty⟩
    · exact hgo h hx hready
    · exact ⟨[], c, Run.nil, ⟨q, h⟩, fun _ _ => rfl, Or.inr ⟨j, next, hx⟩⟩
    · have hout := h.not_held_of_lock hx
      rw [hj] at hout
      cases hout
    · obtain ⟨os, d, hserve, hthreads, hreplies⟩ := h.answer tid hx hempty
      have hd : d.threads j = .call .recv next := by rw [hthreads, hx]
      rcases thread_cases tid d hd with hready | hend | ⟨hlock, -⟩ | ⟨-, hnil⟩
      · obtain ⟨tr, c', hrun, haccounted, hsame, hend⟩ := hgo (h.serve hserve) hd hready
        rw [hthreads] at hsame
        exact ⟨_, c', Run.cons hserve hrun, haccounted, hsame, hend⟩
      · cases hend
      · cases hlock
      · exact (hreplies hnil).elim

end Steps

section Runs

variable {ι : Type} [DecidableEq ι] {tid : ι → Nat}

/-- A thread that calls `malloc` and `free`, and the handler of a region. -/
def mallocAndHandler : Bool → Job
  | false => .heap [.malloc 1, .free 4096]
  | true => .work (.faultHandler 1 1)

end Runs

end RemoteMemoryPool.Proofs
