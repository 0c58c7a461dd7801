import RemoteMemoryPool.Proofs.PageStore

/-!
# Clients of one server do not interfere

Several clients share a server; their requests reach it in any order. As long as no client names
a handle that was given to another one, each of them sees a page store of its own: what the server
answers to its requests is what it would answer if they were the only ones.
-/

namespace RemoteMemoryPool.Proofs

open Interaction Transition

section Change

variable {st st' : PageStore} {c : Call}

/-- A call changes the store at one handle at most: at the one it returns, or at the one it is for. -/
lemma store_change (hs : PageStore.Step st c st') :
    st' = st ∨ ∃ h v, st' = Function.update st h v ∧
      ((Allocates c ∧ c.reply.hndl = h) ∨
        (c.packet.action ≠ 0 ∧ c.packet.hndl = h ∧ st h ≠ none)) := by
  cases hs with
  | alloc ha hn hm h hh hr => exact Or.inr ⟨h, _, rfl, Or.inl ⟨⟨ha, hn, hm⟩, by rw [hr]⟩⟩
  | write ha pages hl ho hr => exact Or.inr ⟨_, _, rfl, Or.inr ⟨by simp [ha], rfl, by simp [hl]⟩⟩
  | free ha pages hl hm hr => exact Or.inr ⟨_, _, rfl, Or.inr ⟨by simp [ha], rfl, by simp [hl]⟩⟩
  | _ => exact Or.inl rfl

end Change

section Clients

variable {κ : Type} [DecidableEq κ]

def HandlesFor (w : Host) (x : κ × Call) (w' : Host) : Prop := Host.Step w x.2 w'

def callsBy (k : κ) (calls : List (κ × Call)) : List Call :=
  (calls.filter (fun x => x.1 = k)).map Prod.snd

/-- A call of the client `k` returned the handle `h` of a new region. -/
def given (calls : List (κ × Call)) (k : κ) (h : Handle) : Bool :=
  calls.any (fun x => decide (x.1 = k ∧ Allocates x.2 ∧ x.2.reply.hndl = h))

/-- No client reads, writes or frees pages of a handle that another client was given. -/
def KeepsApart (calls : List (κ × Call)) : Prop :=
  ∀ before x, before ++ [x] <+: calls → x.2.packet.action ≠ 0 →
    ∀ k, k ≠ x.1 → given before k x.2.packet.hndl = false

def view (st : PageStore) (calls : List (κ × Call)) (k : κ) : PageStore :=
  fun h => if given calls k h then st h else none

lemma callsBy_snoc (k : κ) (calls : List (κ × Call)) (x : κ × Call) :
    callsBy k (calls ++ [x]) = callsBy k calls ++ if x.1 = k then [x.2] else [] := by
  unfold callsBy
  by_cases hx : x.1 = k <;> simp [hx]

lemma given_snoc (calls : List (κ × Call)) (x : κ × Call) (k : κ) (h : Handle) :
    given (calls ++ [x]) k h = true ↔ given calls k h = true ∨
      (x.1 = k ∧ Allocates x.2 ∧ x.2.reply.hndl = h) := by
  simp [given]

lemma given_snoc_of_ne (calls : List (κ × Call)) {x : κ × Call}
    (hx : ¬ Allocates x.2) : given (calls ++ [x]) = given calls := by
  funext k h
  rw [Bool.eq_iff_iff, given_snoc]
  constructor
  · rintro (hg | ⟨-, ha, -⟩)
    · exact hg
    · exact (hx ha).elim
  · exact Or.inl

/-- The handles of the store and of the counter belong to one client each. -/
structure Owned (w : Host) (st : PageStore) (calls : List (κ × Call)) : Prop where
  refines : Refines w st
  owner : ∀ h pages, st h = some pages → ∃ k, given calls k h = true
  unique : ∀ h k k', given calls k h = true → given calls k' h = true → k = k'
  below : ∀ k h, given calls k h = true → ∃ n, n < w.server.handleCount.toNat ∧ h = Int.ofNat n

variable {w w' : Host} {st st' : PageStore} {calls : List (κ × Call)} {x : κ × Call}

lemma Owned.fresh (h : Owned w st calls) (k : κ) :
    given calls k (handleOfCount w.server.handleCount) = false := by
  by_contra hg
  obtain ⟨n, hn, he⟩ := h.below k _ (by simpa using hg)
  have hcount : w.server.handleCount.toNat = n := Int.ofNat.inj he
  omega

lemma Owned.step (h : Owned w st calls) (hR' : Refines w' st') (hs : Host.Step w x.2 w')
    (hst : PageStore.Step st x.2 st') (hc : WithinBounds w x.2) :
    Owned w' st' (calls ++ [x]) := by
  obtain ⟨hle, hnew⟩ := counter_of_step h.refines.inStep hs hc.1 hc.2
  constructor
  · exact hR'
  · intro g pages hg
    have hold : ∀ pages, st g = some pages → ∃ k, given (calls ++ [x]) k g = true := by
      intro pages hg
      obtain ⟨k, hk⟩ := h.owner g pages hg
      exact ⟨k, (given_snoc calls x k g).mpr (Or.inl hk)⟩
    rcases store_change hst with rfl | ⟨g', v, rfl, hcase⟩
    · exact hold pages hg
    · by_cases hgg : g = g'
      · subst hgg
        rcases hcase with ⟨ha, hh⟩ | ⟨-, -, hlive⟩
        · exact ⟨x.1, (given_snoc calls x x.1 g).mpr (Or.inr ⟨rfl, ha, hh⟩)⟩
        · obtain ⟨pages', hg'⟩ := Option.ne_none_iff_exists'.mp hlive
          exact hold pages' hg'
      · rw [Function.update_of_ne hgg] at hg
        exact hold pages hg
  · intro g k k' hk hk'
    rcases (given_snoc calls x k g).mp hk with hk | ⟨rfl, ha, hh⟩
    · rcases (given_snoc calls x k' g).mp hk' with hk' | ⟨rfl, ha, hh⟩
      · exact h.unique g k k' hk hk'
      · rw [← hh, (hnew ha).1, h.fresh k] at hk
        cases hk
    · rcases (given_snoc calls x k' g).mp hk' with hk' | ⟨rfl, -⟩
      · rw [← hh, (hnew ha).1, h.fresh k'] at hk'
        cases hk'
      · rfl
  · intro k g hk
    rcases (given_snoc calls x k g).mp hk with hk | ⟨-, ha, hh⟩
    · obtain ⟨n, hn, hg⟩ := h.below k g hk
      exact ⟨n, hn.trans_le hle, hg⟩
    · obtain ⟨hc, hlt⟩ := hnew ha
      exact ⟨_, hlt, hh.symm.trans hc⟩

lemma Owned.own (h : Owned w st calls) (hx : ∀ k, k ≠ x.1 → given calls k x.2.packet.hndl = false)
    {pages : List Page} (hst : st x.2.packet.hndl = some pages) :
    given calls x.1 x.2.packet.hndl = true := by
  obtain ⟨k, hk⟩ := h.owner _ pages hst
  by_cases hkx : k = x.1
  · rwa [hkx] at hk
  · rw [hx k hkx] at hk
    cases hk

lemma Owned.view_eq (h : Owned w st calls)
    (hx : ∀ k, k ≠ x.1 → given calls k x.2.packet.hndl = false) :
    view st calls x.1 x.2.packet.hndl = st x.2.packet.hndl := by
  unfold view
  cases hst : st x.2.packet.hndl with
  | none => simp
  | some pages => rw [if_pos (h.own hx hst)]

lemma view_update {k : κ} {g : Handle} (hg : given calls k g = true) (v : Option (List Page)) :
    view (Function.update st g v) calls k = Function.update (view st calls k) g v := by
  funext g'
  unfold view
  by_cases hgg : g' = g
  · subst hgg
    simp [hg]
  · simp [Function.update_of_ne hgg]

lemma Owned.view_other (h : Owned w st calls) (hs : Host.Step w x.2 w')
    (hst : PageStore.Step st x.2 st') (hc : WithinBounds w x.2)
    (hx : x.2.packet.action ≠ 0 → ∀ k, k ≠ x.1 → given calls k x.2.packet.hndl = false) {k : κ}
    (hk : k ≠ x.1) : view st' (calls ++ [x]) k = view st calls k := by
  obtain ⟨-, hnew⟩ := counter_of_step h.refines.inStep hs hc.1 hc.2
  funext g
  have hgiven : given (calls ++ [x]) k g = given calls k g := by
    rw [Bool.eq_iff_iff, given_snoc]
    constructor
    · rintro (hg | ⟨hxk, -⟩)
      · exact hg
      · exact (hk hxk.symm).elim
    · exact Or.inl
  unfold view
  rw [hgiven]
  rcases store_change hst with rfl | ⟨g', v, rfl, hcase⟩
  · rfl
  · by_cases hgg : g = g'
    · subst hgg
      have hnot : given calls k g = false := by
        rcases hcase with ⟨ha, rfl⟩ | ⟨h0, rfl, -⟩
        · rw [(hnew ha).1]
          exact h.fresh k
        · exact hx h0 k hk
      simp [hnot]
    · rw [Function.update_of_ne hgg]

lemma Owned.view_own (h : Owned w st calls) (hst : PageStore.Step st x.2 st')
    (hx : x.2.packet.action ≠ 0 → ∀ k, k ≠ x.1 → given calls k x.2.packet.hndl = false) :
    PageStore.Step (view st calls x.1) x.2 (view st' (calls ++ [x]) x.1) := by
  have hnone : ∀ st', ¬ Allocates x.2 → view st' (calls ++ [x]) x.1 = view st' calls x.1 := by
    intro st' hne
    unfold view
    rw [given_snoc_of_ne calls hne]
  have hquiet : ∀ st', x.2.packet.action ≠ 0 → view st' (calls ++ [x]) x.1 = view st' calls x.1 :=
    fun st' hne => hnone st' (fun ha => hne ha.1)
  cases hst with
  | allocFailed ha hm hr =>
    rw [hnone st (fun ⟨_, hn, ha⟩ => hm.elim hn ha)]
    exact .allocFailed ha hm hr
  | alloc ha hn hm g hg hr =>
    have hgiven : given (calls ++ [x]) x.1 g = true :=
      (given_snoc calls x x.1 g).mpr (Or.inr ⟨rfl, ⟨ha, hn, hm⟩, by rw [hr]⟩)
    have hold : view st (calls ++ [x]) x.1 = view st calls x.1 := by
      funext g'
      unfold view
      by_cases hgg : g' = g
      · simp [hgg, hg]
      · have hiff : given (calls ++ [x]) x.1 g' = given calls x.1 g' := by
          rw [Bool.eq_iff_iff, given_snoc, hr]
          simp [Ne.symm hgg]
        rw [hiff]
    rw [view_update hgiven, hold]
    exact .alloc ha hn hm g (by simp [view, hg]) hr
  | readInvalid ha hd hr =>
    have hne : x.2.packet.action ≠ 0 := by simp [ha]
    rw [hquiet st hne]
    exact .readInvalid ha ((h.view_eq (hx hne)).trans hd) hr
  | readFailed ha pages hl ho hr =>
    have hne : x.2.packet.action ≠ 0 := by simp [ha]
    rw [hquiet st hne]
    exact .readFailed ha pages ((h.view_eq (hx hne)).trans hl) ho hr
  | read ha pages hl d ho hr =>
    have hne : x.2.packet.action ≠ 0 := by simp [ha]
    rw [hquiet st hne]
    exact .read ha pages ((h.view_eq (hx hne)).trans hl) d ho hr
  | writeInvalid ha hd hr =>
    have hne : x.2.packet.action ≠ 0 := by simp [ha]
    rw [hquiet st hne]
    exact .writeInvalid ha ((h.view_eq (hx hne)).trans hd) hr
  | writeFailed ha pages hl ho hr =>
    have hne : x.2.packet.action ≠ 0 := by simp [ha]
    rw [hquiet st hne]
    exact .writeFailed ha pages ((h.view_eq (hx hne)).trans hl) ho hr
  | write ha pages hl ho hr =>
    have hne : x.2.packet.action ≠ 0 := by simp [ha]
    rw [hquiet _ hne, view_update (h.own (hx hne) hl)]
    exact .write ha pages ((h.view_eq (hx hne)).trans hl) ho hr
  | freeInvalid ha hd hr =>
    have hne : x.2.packet.action ≠ 0 := by simp [ha]
    rw [hquiet st hne]
    exact .freeInvalid ha ((h.view_eq (hx hne)).trans hd) hr
  | freeFailed ha pages hl hm hr =>
    have hne : x.2.packet.action ≠ 0 := by simp [ha]
    rw [hquiet st hne]
    exact .freeFailed ha pages ((h.view_eq (hx hne)).trans hl) hm hr
  | free ha pages hl hm hr =>
    have hne : x.2.packet.action ≠ 0 := by simp [ha]
    rw [hquiet _ hne, view_update (h.own (hx hne) hl)]
    exact .free ha pages ((h.view_eq (hx hne)).trans hl) hm hr
  | unknown h0 h1 h2 h3 hr =>
    rw [hquiet st h0]
    exact .unknown h0 h1 h2 h3 hr

/-- Each client has made a run of a store of its own. -/
structure Separated (calls : List (κ × Call)) (w : Host) (st : PageStore) : Prop where
  owned : Owned w st calls
  alone : ∀ k, ∃ tr', Run PageStore.Step (fun _ => none) tr' (view st calls k) ∧
    tr'.map Prod.snd = callsBy k calls

lemma separated_fresh (mem : Nat → UInt8) :
    Separated ([] : List (κ × Call)) (Host.fresh mem) (fun _ => none) where
  owned := ⟨fresh_refines mem, by simp, by simp [given], by simp [given]⟩
  alone k := by
    refine ⟨[], ?_, rfl⟩
    have hview : view (fun _ => none) ([] : List (κ × Call)) k = fun _ => none := by
      funext g
      simp [view]
    rw [hview]
    exact Run.nil

/-- How a call keeps to the handles of its client. -/
structure Courteous (calls : List (κ × Call)) (w : Host) (x : κ × Call) : Prop where
  bounds : WithinBounds w x.2
  apart : x.2.packet.action ≠ 0 → ∀ k, k ≠ x.1 → given calls k x.2.packet.hndl = false

lemma Separated.step (h : Separated calls w st) (hx : Courteous calls w x) (hs : HandlesFor w x w') :
    ∃ st', Separated (calls ++ [x]) w' st' := by
  obtain ⟨st', hst, hR'⟩ := h.owned.refines.step hx.bounds.1 hx.bounds.2 hs
  refine ⟨st', h.owned.step hR' hs hst hx.bounds, ?_⟩
  intro k
  obtain ⟨tr', hrun, hlab⟩ := h.alone k
  rw [callsBy_snoc]
  by_cases hk : k = x.1
  · subst hk
    rw [if_pos rfl]
    exact ⟨_, hrun.snoc (h.owned.view_own hst hx.apart), by simp [hlab]⟩
  · rw [if_neg (Ne.symm hk), h.owned.view_other hs hst hx.bounds hx.apart hk]
    exact ⟨tr', hrun, by simp [hlab]⟩

omit [DecidableEq κ] in
lemma run_of_handlesFor {tr : List (Host × (κ × Call))} (h : Run HandlesFor w tr w') :
    Run Host.Step w (tr.map (fun y => (y.1, y.2.2))) w' := by
  induction h with
  | nil => exact Run.nil
  | snoc _ hs ih =>
    rw [List.map_append]
    exact ih.snoc hs

lemma callsBy_sublist (k : κ) (calls : List (κ × Call)) :
    (callsBy k calls).Sublist (calls.map Prod.snd) :=
  List.filter_sublist.map Prod.snd

/-- Requests of any clients reach a fresh server in any order: for pages of 4096 bytes, for fewer
than `2 ^ 20` pages in an `alloc`, with fewer than `2 ^ 32` of these in all, and no client names a
handle that another one was given. The replies each client gets are those of a page store that
nobody else uses. If only its `alloc` requests carry a stale error field, its reads return what it
wrote last. -/
theorem clients_isolated (mem : Nat → UInt8) {tr : List (Host × (κ × Call))} {w : Host}
    (hrun : Run HandlesFor (Host.fresh mem) tr w)
    (hpkt : ∀ x ∈ tr, x.2.2.packet.size = 4096 ∧
      (x.2.2.packet.action = 0 → x.2.2.packet.npages.toNat < 2 ^ 20))
    (hcount : tr.countP (fun x => x.2.2.packet.action = 0) < 2 ^ 32)
    (hapart : KeepsApart (tr.map Prod.snd)) (k : κ) :
    (∃ tr' st, Run PageStore.Step (fun _ => none) tr' st ∧
      tr'.map Prod.snd = callsBy k (tr.map Prod.snd)) ∧
    ((∀ c ∈ callsBy k (tr.map Prod.snd), c.packet.action ≠ 0 → c.packet.error = 0) →
      ReadsLatest (callsBy k (tr.map Prod.snd))) := by
  have hcalls := run_of_handlesFor hrun
  have hbounds : ∀ x ∈ tr, WithinBounds x.1 x.2.2 := by
    have hlt := run_handleCount_lt hcalls (by rwa [List.countP_map])
    intro x hx
    exact ⟨(hpkt x hx).1, fun h0 =>
      ⟨(hpkt x hx).2 h0, hlt (x.1, x.2.2) (List.mem_map_of_mem hx) h0⟩⟩
  have hC : ∀ h x, h ++ [x] <+: tr → Courteous (h.map Prod.snd) x.1 x.2 := by
    intro h x hp
    have hmap : h.map Prod.snd ++ [x.2] <+: tr.map Prod.snd := by
      have := hp.map Prod.snd
      rwa [List.map_append] at this
    exact ⟨hbounds x (hp.subset (by simp)), hapart _ _ hmap⟩
  obtain ⟨st, hiso⟩ := hrun.history_invariant
    (I := fun h w => ∃ st, Separated (h.map Prod.snd) w st)
    (C := fun h w x => Courteous (h.map Prod.snd) w x)
    (fun h t e u hI hC hs => by
      obtain ⟨st, hI⟩ := hI
      rw [List.map_append]
      exact hI.step hC hs)
    ⟨_, separated_fresh mem⟩ hC
  obtain ⟨tr', halone, hlab⟩ := hiso.alone k
  refine ⟨⟨tr', _, halone, hlab⟩, fun herror => ?_⟩
  have hnew : NewHandles ((tr.map Prod.snd).map Prod.snd) := by
    have h := (run_page_store hcalls (List.forall_mem_map.mpr hbounds)).2
    rwa [List.map_map] at h ⊢
  rw [← hlab] at herror ⊢
  refine (page_store_reads_latest halone herror ?_).2
  rw [hlab]
  exact hnew.sublist (callsBy_sublist k _)

end Clients

def handleAllFor {κ : Type} (w : Host) :
    List (κ × Os × Packet) → List (Host × (κ × Call)) × Host
  | [] => ([], w)
  | (k, os, packet) :: rest =>
    let r := w.handle os packet
    let t := handleAllFor r.2 rest
    ((w, (k, ⟨os, packet, r.1⟩)) :: t.1, t.2)

lemma handleAllFor_run {κ : Type} (w : Host) (l : List (κ × Os × Packet))
    (h : ∀ x ∈ (handleAllFor w l).1, x.2.2.os.Admissible x.1 x.2.2.packet) :
    Run HandlesFor w (handleAllFor w l).1 (handleAllFor w l).2 := by
  induction l generalizing w with
  | nil => exact Run.nil
  | cons x l ih =>
    simp only [handleAllFor, List.forall_mem_cons] at h ⊢
    exact Run.cons ⟨h.1, rfl⟩ (ih _ h.2)

/-- Two clients get a page each and write it; the first one reads its own again. Its `alloc` request
carries a stale error. -/
def twoClients : List (Bool × Os × Packet) :=
  let p : Packet := ⟨0, 1, 4096, 0, 0, fun _ => 7, 0⟩
  [(false, ⟨some 4096, true⟩, { p with error := 5 }), (true, ⟨some 8192, true⟩, p),
    (false, ⟨none, true⟩, { p with action := 2 }),
    (true, ⟨none, true⟩, { p with action := 2, hndl := 1, data := fun _ => 9 }),
    (false, ⟨none, true⟩, { p with action := 1, data := zeroPage })]

theorem two_clients_isolated :
    ReadsLatest (callsBy false ((handleAllFor (Host.fresh fun _ => 0) twoClients).1.map Prod.snd)) := by
  refine (clients_isolated (fun _ => 0) (handleAllFor_run _ twoClients ?_) ?_ ?_ ?_ false).2 ?_
  · simp only [twoClients, handleAllFor, List.forall_mem_cons, Os.Admissible]
    refine ⟨fun _ => fresh_mmapAnswer _ (UInt32.toNat_lt _), fun _ a ha => ?_, by simp⟩
    obtain rfl : 8192 = a := Option.some.inj ha
    refine ⟨by decide, by decide, by decide, fun x hx => ?_⟩
    have hlow := ((inRegion_iff 8192 4096 x).mp hx).1
    change (inRegion 4096 4096 x || false) = false
    rw [Bool.or_false, ← Bool.not_eq_true, inRegion_iff]
    have hround : pageRound 4096 = 4096 := rfl
    omega
  · simp [twoClients, handleAllFor]
  · simp [twoClients, handleAllFor]
  · rw [KeepsApart, forall_prefix_iff_take]
    decide +kernel
  · decide +kernel

end RemoteMemoryPool.Proofs
