import RemoteMemoryPool.Proofs.Linearization
import RemoteMemoryPool.Proofs.Progress

/-!
# Remote memory is never given back

`rmp_free` has no body and `free` of the preload library does nothing, so no function of the
client asks the server to free a region. Whatever the threads of a client process do, its requests
allocate, read or write pages of the page size, and every region the server has mapped stays
mapped under its handle.
-/

namespace RemoteMemoryPool.Proofs

open Interaction Transition

/-- A request that allocates, reads or writes pages of the page size. -/
def Modest (p : Packet) : Prop := p.size = 4096 ∧ (p.action = 0 ∨ p.action = 1 ∨ p.action = 2)

/-- The requests an operation may make. -/
def asks : ClientOp → Prop
  | .send p => Modest p
  | _ => True

def AskPhase (_ : Unit) (op : ClientOp) (_ : op.Res) (_ : Unit) : Prop := asks op

lemma neutral_askPhase : Neutral AskPhase := by
  intro q op r q' hop
  constructor
  · intro _
    rfl
  · intro _
    cases op with
    | send p => exact hop.elim
    | _ => trivial

lemma follows_ask (p : Packet) (post : Unit → Unit → Prop) :
    (Client.send p).Follows AskPhase () post ↔ Modest p ∧ post () () := by
  constructor
  · intro h
    obtain ⟨q', hask, hpost⟩ := h ()
    exact ⟨hask, hpost⟩
  · rintro ⟨hask, hpost⟩ r
    exact ⟨(), hask, hpost⟩

lemma follows_hear (post : Packet → Unit → Prop) :
    Client.recv.Follows AskPhase () post ↔ ∀ r, post r () := by
  apply forall_congr'
  intro r
  constructor
  · rintro ⟨q', -, hpost⟩
    exact hpost
  · intro hpost
    exact ⟨(), trivial, hpost⟩

lemma requests_askPhase : Requests AskPhase () where
  alloc npages := by
    have hreg := fun addr => keeps_registerRegion (q := ()) neutral_askPhase addr npages.toNat
    simp only [Program.Keeps, Client.rmpAlloc, Program.follows_bind, follows_mmap neutral_askPhase]
    intro r
    cases r with
    | none => trivial
    | some addr =>
      simp [neutral_askPhase, follows_ask, follows_hear, (hreg addr).follows, Modest]
  read hd offset page := by
    simp [Program.Keeps, Client.rmpReadPage, neutral_askPhase, follows_ask, follows_hear, Modest]
  write hd offset page := by
    simp [Program.Keeps, Client.rmpWritePage, neutral_askPhase, follows_ask, follows_hear, Modest]

lemma brackets_askPhase : Brackets AskPhase () () where
  neutral := neutral_askPhase
  lock := trivial
  unlock _ _ := trivial
  scopeExit := trivial
  outside := requests_askPhase
  inside := requests_askPhase

/-- A modest request leaves every live handle and every mapped byte as they are. -/
lemma handle_keeps (os : Os) {w : Host} {p : Packet} (hs : InStep w.server)
    (hbelow : HandlesBelow w.server) (hp : Modest p) :
    (∀ h a n, Live w.server h a n → Live (w.handle os p).2.server h a n) ∧
      ∀ x, w.space.mapped x = true → (w.handle os p).2.space.mapped x = true := by
  have ho := handle_outcome os w p hs
  generalize (w.handle os p).1 = r at ho
  generalize (w.handle os p).2 = w' at ho
  cases ho with
  | alloced h0 a hlen hm =>
    constructor
    · intro h b n hl
      refine live_alloced.mpr (Or.inr ⟨?_, hl⟩)
      rintro rfl
      exact absurd (hl.1.symm.trans hbelow.fresh_handle) (by simp)
    · intro x hx
      rw [w.space.mmap_snd hlen]
      simp [hx]
  | written ha a n hl ho => exact ⟨fun _ _ _ hl => hl, fun _ hx => hx⟩
  | freed ha a n hl hm =>
    have h3 := hp.2
    rw [ha] at h3
    exact absurd h3 (by decide)
  | _ => exact ⟨fun _ _ _ hl => hl, fun _ hx => hx⟩

lemma handle_below {w : Host} {os : Os} {p : Packet} (hs : InStep w.server)
    (hbelow : HandlesBelow w.server) (hroom : w.server.handleCount.toNat + 1 < 2 ^ 32) :
    HandlesBelow (w.handle os p).2.server := by
  have ho := handle_outcome os w p hs
  generalize (w.handle os p).1 = r at ho
  generalize (w.handle os p).2 = w' at ho
  cases ho with
  | alloced h0 a hlen hm => exact hbelow.alloced hroom p.npages a
  | freed ha a n hl hm => exact hbelow.freed p.hndl
  | _ => exact hbelow

/-- Threads reach the server through the socket only. -/
lemma effect_host {op : ClientOp} {t : Nat} {s s' : Shared} {r : op.Res} (h : op.Effect t s r s') :
    s'.host = s.host := by
  cases op with
  | recv =>
    obtain ⟨reply, rest, -, -, rfl⟩ := h
    rfl
  | readMsg uffd =>
    obtain ⟨msg, rfl⟩ := h
    rfl
  | get => rw [h.2]
  | pthreadSelf => rw [h.2]
  | lock => rw [h.2]
  | _ => rw [h]

section Runs

variable {ι : Type} [DecidableEq ι] {tid : ι → Nat}

def asked : ProcessEvent ι → Option Packet
  | .act ⟨_, .send p, _⟩ => some p
  | _ => none

/-- The requests made so far are modest, and so are those to come. -/
structure Asking (c : Process ι) : Prop where
  follows : ∀ i, (c.threads i).Follows AskPhase () (fun _ _ => True)
  requests : ∀ x ∈ c.state.requests, Modest x.packet
  inStep : InStep c.state.host.server

/-- What the server has is still there. -/
structure Retains (w w' : Host) : Prop where
  live : ∀ h a n, Live w.server h a n → Live w'.server h a n
  mapped : ∀ x, w.space.mapped x = true → w'.space.mapped x = true

lemma Retains.refl (w : Host) : Retains w w where
  live _ _ _ hl := hl
  mapped _ hx := hx

lemma Retains.trans {w w' w'' : Host} (h : Retains w w') (h' : Retains w' w'') : Retains w w'' where
  live g a n hl := h'.live g a n (h.live g a n hl)
  mapped x hx := h'.mapped x (h.mapped x hx)

/-- As long as the counter has room, the server keeps its regions and numbers new ones on. -/
def KeepsRegions (w w' : Host) : Prop :=
  HandlesBelow w.server → HandlesBelow w'.server ∧ Retains w w'

variable {c c' : Process ι} {e : ProcessEvent ι}

omit [DecidableEq ι] in
lemma requests_modest {i : ι} {op : ClientOp} {r : op.Res}
    (h : ∀ x ∈ c.state.requests, Modest x.packet) (hasks : asks op)
    (heff : op.Effect (tid i) c.state r c'.state) : ∀ x ∈ c'.state.requests, Modest x.packet := by
  rcases socket_cases op with ⟨p, rfl⟩ | rfl | hop
  · rw [heff]
    exact forall_mem_snoc.mpr ⟨h, hasks⟩
  · obtain ⟨reply, rest, -, -, hstate⟩ := heff
    rw [hstate]
    exact h
  · rw [(effect_offSocket hop heff).2.1]
    exact h

lemma Asking.step (h : Asking c) (hs : Process.Step tid c e c') :
    Asking c' ∧ (∀ p ∈ asked e, Modest p) ∧
      (c.state.host.server.handleCount.toNat + 1 < 2 ^ 32 →
        KeepsRegions c.state.host c'.state.host) := by
  cases e with
  | serve os =>
    obtain ⟨hthreads, request, rest, hreq, hadm, hstate⟩ := hs
    have hmodest : Modest request.packet := h.requests request (by simp [hreq])
    have hask : Asking c' := by
      constructor
      · rw [hthreads]
        exact h.follows
      · intro x hx
        rw [hstate] at hx
        exact h.requests x (by rw [hreq]; exact List.mem_cons_of_mem _ hx)
      · rw [hstate]
        exact handle_inStep hadm h.inStep
    refine ⟨hask, by simp [asked], fun hroom hbelow => ?_⟩
    obtain ⟨hlive, hmapped⟩ := handle_keeps os h.inStep hbelow hmodest
    rw [hstate]
    exact ⟨handle_below h.inStep hbelow hroom, hlive, hmapped⟩
  | act a =>
    obtain ⟨i, op, r⟩ := a
    obtain ⟨q', hasks, heff, hfollows⟩ := act_follows hs h.follows
    have hhost := effect_host heff
    refine ⟨⟨fun j => ?_, ?_, ?_⟩, ?_, fun _ hbelow => ?_⟩
    · simpa using hfollows j
    · exact requests_modest h.requests hasks heff
    · rw [hhost]
      exact h.inStep
    · intro p hp
      cases op with
      | send p' =>
        obtain rfl : p' = p := Option.some.inj hp
        exact hasks
      | _ => cases hp
    · rw [hhost]
      exact ⟨hbelow, Retains.refl _⟩

lemma Asking.run (h : Asking c) {tr : History ι} (hr : Run (Process.Step tid) c tr c') :
    Asking c' ∧ (∀ x ∈ tr, ∀ p ∈ asked x.2, Modest p) ∧
      ((∀ x ∈ tr, x.1.state.host.server.handleCount.toNat + 1 < 2 ^ 32) →
        KeepsRegions c.state.host c'.state.host) := by
  induction hr with
  | nil => exact ⟨h, by simp, fun _ hbelow => ⟨hbelow, Retains.refl _⟩⟩
  | @snoc d d' tr e hr hs ih =>
    obtain ⟨hask, hmodest, hkept⟩ := ih
    obtain ⟨hask', hlast, hkept'⟩ := hask.step hs
    refine ⟨hask', forall_mem_snoc.mpr ⟨hmodest, hlast⟩, fun hroom hbelow => ?_⟩
    rw [forall_mem_snoc] at hroom
    obtain ⟨hbelow₁, hretains₁⟩ := hkept hroom.1 hbelow
    obtain ⟨hbelow₂, hretains₂⟩ := hkept' hroom.2 hbelow₁
    exact ⟨hbelow₂, hretains₁.trans hretains₂⟩

/-- Threads of a client process call `malloc` and `free` of the preload library, public methods of
the client, or resolve page faults, in any interleaving. No request is ever a `free`: all of them
allocate, read or write pages of the page size. As long as the counter does not wrap around, every
region that the server has under a handle at some time it has, at the same address and of the same
length, at every later time. -/
theorem regions_never_given_back (job : ι → Job) {s : Shared} (hreq : s.requests = [])
    (hin : InStep s.host.server) (hbelow : HandlesBelow s.host.server) {tr tr' : History ι}
    (hr : Run (Process.Step tid) ⟨fun i => (job i).run, s⟩ tr c)
    (hr' : Run (Process.Step tid) c tr' c') :
    (∀ x ∈ tr ++ tr', ∀ p ∈ asked x.2, Modest p) ∧
      ((∀ x ∈ tr ++ tr', x.1.state.host.server.handleCount.toNat + 1 < 2 ^ 32) →
        Retains c.state.host c'.state.host) := by
  have h0 : Asking (⟨fun i => (job i).run, s⟩ : Process ι) := by
    refine ⟨fun i => ?_, by simp [hreq], hin⟩
    exact (brackets_askPhase.job (job i)).follows (fun _ => trivial)
  obtain ⟨hask, hmodest, hkept⟩ := h0.run hr
  obtain ⟨-, hmodest', hkept'⟩ := hask.run hr'
  constructor
  · exact List.forall_mem_append.mpr ⟨hmodest, hmodest'⟩
  · intro hroom
    rw [List.forall_mem_append] at hroom
    exact (hkept' hroom.2 (hkept hroom.1 hbelow).1).2

end Runs

/-- A process that has done nothing, with a server that has one page. -/
def withPage : Shared := { Shared.fresh with host := pageServer }

theorem page_never_given_back :
    ∃ tr c, Run (Process.Step (fun _ : Bool => 7)) ⟨fun i => (mallocAndHandler i).run, withPage⟩ tr c ∧
      tr.length = 39 ∧ (∀ x ∈ tr, ∀ p ∈ asked x.2, Modest p) ∧ Live c.state.host.server 0 4096 1 := by
  have hsome : (Process.execute (fun _ : Bool => 7) ⟨fun i => (mallocAndHandler i).run, withPage⟩
      (List.replicate 27 (some false) ++ [none] ++ List.replicate 11 (some false))).map (fun x =>
        (x.1.length,
          x.1.all (fun y => decide (y.1.state.host.server.handleCount.toNat + 1 < 2 ^ 32)))) =
            some (39, true) := by
    decide +kernel
  obtain ⟨⟨tr, c⟩, hexec, hx⟩ := Option.map_eq_some_iff.mp hsome
  obtain ⟨hlen, hroom⟩ := Prod.mk.inj hx
  have hrun := run_of_execute hexec
  obtain ⟨st, hR⟩ := pageServer_refines
  have hlive : Live withPage.host.server 0 4096 1 := ⟨rfl, rfl⟩
  obtain ⟨hmodest, hkept⟩ := regions_never_given_back mallocAndHandler (s := withPage) rfl hR.inStep
    hR.below Run.nil hrun
  exact ⟨tr, c, hrun, hlen, by simpa using hmodest, (hkept (by simpa using hroom)).live 0 4096 1 hlive⟩

end RemoteMemoryPool.Proofs
