import RemoteMemoryPool.Lib.Linearization
import RemoteMemoryPool.Proofs.ServerInterleaving

/-!
# Concurrent calls behave like calls in turn

Calls of `rmp::Server::handle` that allocate, read and write run concurrently on one server. An
`alloc` takes effect when it is given its handle, a `read` and a `write` when they copy their page,
and a call that fails when it finds out. `Coupled` ties the server the calls share to the server on
which the calls that have taken effect were made one after another; the two differ in the regions
and the entries of the `alloc`s in progress only. `concurrent_calls_linearize` follows.
-/

namespace RemoteMemoryPool.Proofs

open Interaction Transition

/-! ### Where a call stands -/

/-- Where a call stands, with the values it holds and, once it has taken effect, its reply. -/
inductive Stage
  | start
  | mapped (addr : Nat)
  | numbered (addr : Nat) (h : Handle)
  | addressed (h : Handle)
  | checked
  | sized (npages : UInt32)
  | refused
  | located (npages : UInt32) (addr : Nat)
  | done (reply : Packet)

def refusal (p : Packet) : Packet :=
  { p with error := if p.action = 1 then readFailed else writeFailed }

/-- The steps of a call for `p` that allocates, reads or writes. -/
inductive Course (p : Packet) : Stage → (op : ServerOp) → op.Res → Stage → Prop
  | mmapFailed (ha : p.action = 0) : Course p .start (.mmap (p.npages * p.size).toNat) none
      (.done { p with error := allocFailed })
  | mmapped (ha : p.action = 0) (a : Nat) :
      Course p .start (.mmap (p.npages * p.size).toNat) (some a) (.mapped a)
  | newHandle (ha : p.action = 0) (a : Nat) (n : UInt32) :
      Course p (.mapped a) .getNewHandle n (.numbered a (handleOfCount n))
  | setAddr (a : Nat) (h : Handle) : Course p (.numbered a h) (.setAddrMap h a) () (.addressed h)
  | setPages (h : Handle) : Course p (.addressed h) (.setHndlNPages h p.npages) ()
      (.done { p with hndl := h })
  | missing (ha : p.action = 1 ∨ p.action = 2) : Course p .start (.containsKey p.hndl) false
      (.done { p with error := invalidHandle })
  | found (ha : p.action = 1 ∨ p.action = 2) : Course p .start (.containsKey p.hndl) true .checked
  | size (n : UInt32) (h : p.offset < n) : Course p .checked (.getHndlNPages p.hndl) n (.sized n)
  | outside (ha : p.action = 1 ∨ p.action = 2) (n : UInt32) (h : n ≤ p.offset) :
      Course p .checked (.getHndlNPages p.hndl) n .refused
  | refuse (a : Nat) : Course p .refused (.getAddrMap p.hndl) a (.done (refusal p))
  | locate (n : UInt32) (a : Nat) : Course p (.sized n) (.getAddrMap p.hndl) a (.located n a)
  | copyFrom (ha : p.action = 1) (n : UInt32) (a : Nat) (d : Page) :
      Course p (.located n a) (.memcpyFrom (Server.addrWithOffset a p.size p.offset)) d
        (.done { p with data := d })
  | copyTo (ha : p.action = 2) (n : UInt32) (a : Nat) :
      Course p (.located n a) (.memcpyTo (Server.addrWithOffset a p.size p.offset) p.data) ()
        (.done p)

/-- The packets the calls are made for: no `free`, and the page size. -/
structure Plainly (p : Packet) : Prop where
  action : p.action = 0 ∨ p.action = 1 ∨ p.action = 2
  size : p.size = 4096
  small : p.action = 0 → p.npages.toNat < 2 ^ 20

/-- The program has a call's remaining steps to go and ends with its reply. -/
def OnWay (p : Packet) (x : ServerM Packet) (q : Stage) : Prop :=
  x.Follows (Course p) q (fun reply q => q = .done reply)

section Courses

variable (p : Packet)

lemma alloc_course (ha : p.action = 0) :
    (Server.alloc p.npages p.size).Follows (Course p) .start (fun h q =>
      (h = -1 ∧ q = .done { p with error := allocFailed }) ∨
        (∃ n, h = handleOfCount n) ∧ q = .done { p with hndl := h }) := by
  intro region
  cases region with
  | none => exact ⟨_, .mmapFailed ha, Or.inl ⟨rfl, rfl⟩⟩
  | some a =>
    refine ⟨_, .mmapped ha a, fun n => ⟨_, .newHandle ha a n, fun _ => ?_⟩⟩
    exact ⟨_, .setAddr a _, fun _ => ⟨_, .setPages _, Or.inr ⟨⟨n, rfl⟩, rfl⟩⟩⟩

lemma read_course (ha : p.action = 1) :
    (Server.read p.hndl p).Follows (Course p) .checked (fun x q =>
      (x = (-1, p) ∧ q = .done (refusal p)) ∨
        ∃ d, x = (0, { p with data := d }) ∧ q = .done { p with data := d }) := by
  simp only [Server.read, Program.follows_bind, Program.follows_ite]
  intro n
  by_cases h : n ≤ p.offset
  · refine ⟨_, .outside (.inl ha) n h, fun a => ⟨_, .refuse a, ?_⟩⟩
    exact And.intro (fun _ => Or.inl ⟨rfl, rfl⟩) (fun hn => (hn h).elim)
  · refine ⟨_, .size n (UInt32.not_le.mp h), fun a => ⟨_, .locate n a, ?_⟩⟩
    refine And.intro (fun hle => (h hle).elim) (fun _ d => ?_)
    exact ⟨_, .copyFrom ha n a d, Or.inr ⟨d, rfl, rfl⟩⟩

lemma write_course (ha : p.action = 2) :
    (Server.write p.hndl p).Follows (Course p) .checked (fun x q =>
      (x = -1 ∧ q = .done (refusal p)) ∨ (x = 0 ∧ q = .done p)) := by
  simp only [Server.write, Program.follows_bind, Program.follows_ite]
  intro n
  by_cases h : n ≤ p.offset
  · refine ⟨_, .outside (.inr ha) n h, fun a => ⟨_, .refuse a, ?_⟩⟩
    exact And.intro (fun _ => Or.inl ⟨rfl, rfl⟩) (fun hn => (hn h).elim)
  · refine ⟨_, .size n (UInt32.not_le.mp h), fun a => ⟨_, .locate n a, ?_⟩⟩
    refine And.intro (fun hle => (h hle).elim) (fun _ _ => ?_)
    exact ⟨_, .copyTo ha n a, Or.inr ⟨rfl, rfl⟩⟩

lemma check_course (ha : p.action = 1 ∨ p.action = 2) {x : ServerM Packet} (hx : OnWay p x .checked) :
    OnWay p (Server.containsKey p.hndl >>= fun b =>
      if b then x else return { p with error := invalidHandle }) .start := by
  unfold OnWay
  simp only [Program.follows_bind, Program.follows_ite]
  intro found
  cases found with
  | false => exact ⟨_, .missing ha, And.intro (fun h => by cases h) (fun _ => rfl)⟩
  | true => exact ⟨_, .found ha, And.intro (fun _ => hx) (fun h => (h rfl).elim)⟩

lemma handle_course (hact : p.action = 0 ∨ p.action = 1 ∨ p.action = 2) :
    OnWay p (Server.handle p) .start := by
  rcases hact with h | h | h
  · have hr : Server.handle p = Server.handleAlloc p := by simp [Server.handle, h]
    rw [hr, OnWay, Server.handleAlloc, Program.follows_bind]
    apply (alloc_course p h).mono
    rintro hndl q (⟨rfl, rfl⟩ | ⟨⟨n, rfl⟩, rfl⟩)
    · rfl
    · rw [if_neg (handleOfCount_ne_neg_one n)]
      rfl
  · have hr : Server.handle p = Server.handleRead p := by simp [Server.handle, h]
    rw [hr]
    apply check_course p (.inl h)
    rw [OnWay, Program.follows_bind]
    apply (read_course p h).mono
    rintro x q (⟨rfl, rfl⟩ | ⟨d, rfl, rfl⟩)
    · simp [refusal, h]
    · rfl
  · have hr : Server.handle p = Server.handleWrite p := by simp [Server.handle, h]
    rw [hr]
    apply check_course p (.inr h)
    rw [OnWay, Program.follows_bind]
    apply (write_course p h).mono
    rintro x q (⟨rfl, rfl⟩ | ⟨rfl, rfl⟩)
    · simp [refusal, h]
    · rfl

end Courses

section Replies

variable (os : Os) (w : Host) (p : Packet)

lemma handle_invalid (ha : p.action = 1 ∨ p.action = 2) (hk : w.server.addrMap.find p.hndl = none) :
    w.handle os p = ({ p with error := invalidHandle }, w) := by
  have hc : ¬w.server.addrMap.Contains p.hndl := by simp [UnorderedMap.Contains, hk]
  rcases ha with ha | ha
  · simp [Host.handle, Server.handle, ha, Server.handleRead, hc]
  · simp [Host.handle, Server.handle, ha, Server.handleWrite, hc]

lemma handle_outside (ha : p.action = 1 ∨ p.action = 2) {a : Nat} {n : UInt32}
    (hl : Live w.server p.hndl a n) (ho : n ≤ p.offset) : w.handle os p = (refusal p, w) := by
  have hc : w.server.addrMap.Contains p.hndl := by simp [UnorderedMap.Contains, hl.1]
  rcases ha with ha | ha
  · simp [Host.handle, Server.handle, ha, Server.handleRead, hc, run_read_live os w hl, ho, refusal]
  · simp [Host.handle, Server.handle, ha, Server.handleWrite, hc, run_write_live os w hl, ho, refusal]

lemma handle_alloc_refused (ha : p.action = 0) (hm : os.mmapAnswer = none) :
    w.handle os p = ({ p with error := allocFailed }, w) := by
  have hr : w.handle os p = (Server.handleAlloc p).run (ServerOp.exec os) w := by
    simp [Host.handle, Server.handle, ha]
  rw [hr, Server.handleAlloc, Program.run_bind, run_alloc, hm]
  simp [AddressSpace.mmap]

end Replies

/-! ### The server the calls share and the server of the calls in turn -/

def Stage.reply (p : Packet) : Stage → Option Packet
  | .numbered _ h => some { p with hndl := h }
  | .addressed h => some { p with hndl := h }
  | .refused => some (refusal p)
  | .done reply => some reply
  | _ => none

/-- The handle whose entries a call has still to make. -/
def Stage.entering : Stage → Option Handle
  | .numbered _ h => some h
  | .addressed h => some h
  | _ => none

/-- What a call past its check has found out about its handle. -/
def Stage.Knows (p : Packet) (sv : Server) : Stage → Prop
  | .checked => ∃ a n, Live sv p.hndl a n
  | .sized n => p.offset < n ∧ ∃ a, Live sv p.hndl a n
  | .refused => ∃ a n, Live sv p.hndl a n
  | .located n a => p.offset < n ∧ Live sv p.hndl a n
  | _ => True

/-- The handle a call past its check is for. -/
def Stage.naming (p : Packet) : Stage → Option Handle
  | .checked => some p.hndl
  | .sized _ => some p.hndl
  | .refused => some p.hndl
  | .located _ _ => some p.hndl
  | _ => none

lemma Stage.Knows.mono {p : Packet} {sv sv' : Server} {q : Stage} (hk : q.Knows p sv)
    (hl : ∀ a n, Live sv p.hndl a n → Live sv' p.hndl a n) : q.Knows p sv' := by
  cases q with
  | checked =>
    obtain ⟨a, n, h⟩ := hk
    exact ⟨a, n, hl a n h⟩
  | sized n =>
    obtain ⟨ho, a, h⟩ := hk
    exact ⟨ho, a, hl a n h⟩
  | refused =>
    obtain ⟨a, n, h⟩ := hk
    exact ⟨a, n, hl a n h⟩
  | located n a => exact ⟨hk.1, hl a n hk.2⟩
  | _ => trivial

lemma Stage.Knows.live {p : Packet} {sv : Server} {q : Stage} (hk : q.Knows p sv) {g : Handle}
    (hg : q.naming p = some g) : sv.addrMap.find g ≠ none := by
  have hlive : ∃ a n, Live sv g a n := by
    cases q with
    | checked => cases hg; exact hk
    | sized n => cases hg; exact ⟨hk.2.choose, n, hk.2.choose_spec⟩
    | refused => cases hg; exact hk
    | located n a => cases hg; exact ⟨a, n, hk.2⟩
    | _ => cases hg
  obtain ⟨a, n, hl⟩ := hlive
  simp [hl.1]

section Coupling

variable {ι : Type}

/-- The maps `sv` of the shared server and `tv` of the server of the calls in turn differ in the
entries that `alloc`s have still to make. -/
structure MapsAgree (pkts : ι → Packet) (stage : ι → Stage) (sv tv : Server) : Prop where
  count : sv.handleCount = tv.handleCount
  addr : ∀ h, (∀ i a, stage i ≠ .numbered a h) → sv.addrMap.find h = tv.addrMap.find h
  addrLate : ∀ i a h, stage i = .numbered a h → tv.addrMap.find h = some a
  pages : ∀ h, (∀ i, (stage i).entering ≠ some h) → sv.hndlNPages.find h = tv.hndlNPages.find h
  pagesLate : ∀ i h, (stage i).entering = some h → tv.hndlNPages.find h = some (pkts i).npages
  distinct : ∀ i j h, (stage i).entering = some h → (stage j).entering = some h → i = j

def span (p : Packet) : Nat := (p.npages * p.size).toNat

/-- The address spaces differ in the regions of the `alloc`s that have no handle yet: these are
mapped and zero in the shared one and not mapped in the other. -/
structure SpacesAgree (pkts : ι → Packet) (stage : ι → Stage) (sp tp : AddressSpace) : Prop where
  placed : ∀ i a, stage i = .mapped a →
    span (pkts i) ≠ 0 ∧ tp.MmapAnswer (span (pkts i)) (some a)
  zeroed : ∀ i a x, stage i = .mapped a → inRegion a (span (pkts i)) x = true → sp.mem x = 0
  apart : ∀ i j a b x, stage i = .mapped a → stage j = .mapped b → i ≠ j →
    inRegion a (span (pkts i)) x = true → inRegion b (span (pkts j)) x = false
  mapped : ∀ x, sp.mapped x = true ↔
    tp.mapped x = true ∨ ∃ i a, stage i = .mapped a ∧ inRegion a (span (pkts i)) x = true
  mem : ∀ x, (∀ i a, stage i = .mapped a → inRegion a (span (pkts i)) x = false) →
    sp.mem x = tp.mem x

variable [DecidableEq ι] {pkts : ι → Packet} {stage : ι → Stage} {sv tv : Server}
  {sp tp : AddressSpace} {i : ι} {q : Stage}

lemma MapsAgree.move (h : MapsAgree pkts stage sv tv) (ho : (stage i).entering = none)
    (hq : q.entering = none) : MapsAgree pkts (Function.update stage i q) sv tv := by
  have hold : ∀ j g, (Function.update stage i q j).entering = some g → (stage j).entering = some g := by
    intro j g hj
    by_cases hji : j = i
    · subst hji
      rw [Function.update_self, hq] at hj
      cases hj
    · rwa [Function.update_of_ne hji] at hj
  have hnew : ∀ j, (stage j).entering ≠ none → Function.update stage i q j = stage j := by
    intro j hj
    apply Function.update_of_ne
    rintro rfl
    exact hj ho
  constructor
  · exact h.count
  · intro g hg
    apply h.addr
    intro j a hj
    exact hg j a ((hnew j (by simp [hj, Stage.entering])).trans hj)
  · intro j a g hj
    have hent := hold j g (by simp [hj, Stage.entering])
    rw [hnew j (by simp [hent])] at hj
    exact h.addrLate j a g hj
  · intro g hg
    apply h.pages
    intro j hj
    apply hg j
    rw [hnew j (by simp [hj])]
    exact hj
  · exact fun j g hj => h.pagesLate j g (hold j g hj)
  · exact fun j k g hj hk => h.distinct j k g (hold j g hj) (hold k g hk)

lemma SpacesAgree.move (h : SpacesAgree pkts stage sp tp) (ho : ∀ a, stage i ≠ .mapped a)
    (hq : ∀ a, q ≠ .mapped a) : SpacesAgree pkts (Function.update stage i q) sp tp := by
  have hiff : ∀ j a, Function.update stage i q j = .mapped a ↔ stage j = .mapped a := by
    intro j a
    by_cases hji : j = i
    · subst hji
      rw [Function.update_self]
      exact ⟨fun h => (hq a h).elim, fun h => (ho a h).elim⟩
    · rw [Function.update_of_ne hji]
  constructor
  · simp only [hiff]
    exact h.placed
  · simp only [hiff]
    exact h.zeroed
  · simp only [hiff]
    exact h.apart
  · simp only [hiff]
    exact h.mapped
  · simp only [hiff]
    exact h.mem

lemma MapsAgree.numbered (h : MapsAgree pkts stage sv tv) {a : Nat} (hi : stage i = .mapped a)
    (hin : InStep tv) (hbelow : HandlesBelow tv) :
    MapsAgree pkts (Function.update stage i (.numbered a (handleOfCount sv.handleCount)))
      { sv with handleCount := sv.handleCount + 1 } (Server.alloced tv (pkts i).npages a) := by
  have haddr := hbelow.fresh_handle
  have hpages := (hin.keys _).mp haddr
  rw [h.count]
  have hold : ∀ j g, (stage j).entering = some g → j ≠ i ∧ g ≠ handleOfCount tv.handleCount := by
    intro j g hj
    constructor
    · rintro rfl
      rw [hi] at hj
      cases hj
    · rintro rfl
      have := h.pagesLate j _ hj
      rw [hpages] at this
      cases this
  have hent : ∀ j g,
      (Function.update stage i (.numbered a (handleOfCount tv.handleCount)) j).entering = some g →
      (j = i ∧ g = handleOfCount tv.handleCount) ∨ (stage j).entering = some g := by
    intro j g hj
    by_cases hji : j = i
    · subst hji
      rw [Function.update_self] at hj
      exact Or.inl ⟨rfl, (Option.some.inj hj).symm⟩
    · rw [Function.update_of_ne hji] at hj
      exact Or.inr hj
  constructor
  · rfl
  · intro g hg
    have hgh : g ≠ handleOfCount tv.handleCount := by
      rintro rfl
      exact hg i a (Function.update_self ..)
    simp only [Server.alloced, UnorderedMap.find_set, if_neg hgh]
    apply h.addr
    intro j b hj
    have hji := (hold j g (by simp [hj, Stage.entering])).1
    exact hg j b ((Function.update_of_ne hji _ _).trans hj)
  · intro j b g hj
    simp only [Server.alloced, UnorderedMap.find_set]
    rcases hent j g (by simp [hj, Stage.entering]) with ⟨rfl, rfl⟩ | hjg
    · rw [Function.update_self] at hj
      cases hj
      rw [if_pos rfl]
    · obtain ⟨hji, hgh⟩ := hold j g hjg
      rw [Function.update_of_ne hji] at hj
      rw [if_neg hgh]
      exact h.addrLate j b g hj
  · intro g hg
    have hgh : g ≠ handleOfCount tv.handleCount := by
      rintro rfl
      exact hg i (by simp [Stage.entering])
    simp only [Server.alloced, UnorderedMap.find_set, if_neg hgh]
    apply h.pages
    intro j hj
    apply hg j
    rw [Function.update_of_ne (hold j g hj).1]
    exact hj
  · intro j g hj
    simp only [Server.alloced, UnorderedMap.find_set]
    rcases hent j g hj with ⟨rfl, rfl⟩ | hjg
    · rw [if_pos rfl]
    · rw [if_neg (hold j g hjg).2]
      exact h.pagesLate j g hjg
  · intro j k g hj hk
    rcases hent j g hj with ⟨rfl, rfl⟩ | hjg
    · rcases hent k _ hk with ⟨rfl, -⟩ | hkg
      · rfl
      · exact ((hold k _ hkg).2 rfl).elim
    · rcases hent k g hk with ⟨rfl, rfl⟩ | hkg
      · exact ((hold j _ hjg).2 rfl).elim
      · exact h.distinct j k g hjg hkg

lemma MapsAgree.addressed (h : MapsAgree pkts stage sv tv) {a : Nat} {g : Handle}
    (hi : stage i = .numbered a g) :
    MapsAgree pkts (Function.update stage i (.addressed g))
      { sv with addrMap := sv.addrMap.set g a } tv := by
  have hent : ∀ j, (Function.update stage i (.addressed g) j).entering = (stage j).entering := by
    intro j
    by_cases hji : j = i
    · subst hji
      rw [Function.update_self, hi]
      rfl
    · rw [Function.update_of_ne hji]
  constructor
  · exact h.count
  · intro k hk
    simp only [UnorderedMap.find_set]
    split
    · next hkg => rw [hkg, h.addrLate i a g hi]
    · next hkg =>
      apply h.addr
      intro j b hj
      have hji : j ≠ i := by
        rintro rfl
        rw [hi] at hj
        cases hj
        exact hkg rfl
      exact hk j b ((Function.update_of_ne hji _ _).trans hj)
  · intro j b k hj
    have hji : j ≠ i := by
      rintro rfl
      rw [Function.update_self] at hj
      cases hj
    rw [Function.update_of_ne hji] at hj
    exact h.addrLate j b k hj
  · simp only [hent]
    exact h.pages
  · simp only [hent]
    exact h.pagesLate
  · simp only [hent]
    exact h.distinct

lemma MapsAgree.entered (h : MapsAgree pkts stage sv tv) {g : Handle} {reply : Packet}
    (hi : stage i = .addressed g) :
    MapsAgree pkts (Function.update stage i (.done reply))
      { sv with hndlNPages := sv.hndlNPages.set g (pkts i).npages } tv := by
  have hig : (stage i).entering = some g := by rw [hi]; rfl
  have hent : ∀ j k, (Function.update stage i (.done reply) j).entering = some k →
      j ≠ i ∧ (stage j).entering = some k := by
    intro j k hj
    have hji : j ≠ i := by
      rintro rfl
      rw [Function.update_self] at hj
      cases hj
    rw [Function.update_of_ne hji] at hj
    exact ⟨hji, hj⟩
  constructor
  · exact h.count
  · intro k hk
    apply h.addr
    intro j b hj
    have hji : j ≠ i := by
      rintro rfl
      rw [hi] at hj
      cases hj
    exact hk j b ((Function.update_of_ne hji _ _).trans hj)
  · intro j b k hj
    have hji := (hent j k (by simp [hj, Stage.entering])).1
    rw [Function.update_of_ne hji] at hj
    exact h.addrLate j b k hj
  · intro k hk
    simp only [UnorderedMap.find_set]
    split
    · next hkg => rw [hkg, h.pagesLate i g hig]
    · next hkg =>
      apply h.pages
      intro j hj
      have hji : j ≠ i := by
        rintro rfl
        exact hkg (Option.some.inj (hj.symm.trans hig))
      apply hk j
      rw [Function.update_of_ne hji]
      exact hj
  · exact fun j k hj => h.pagesLate j k (hent j k hj).2
  · exact fun j l k hj hl => h.distinct j l k (hent j k hj).2 (hent l k hl).2

omit [DecidableEq ι] in
lemma MapsAgree.settled (h : MapsAgree pkts stage sv tv) {g : Handle}
    (hg : ∀ j, (stage j).entering ≠ some g) :
    sv.addrMap.find g = tv.addrMap.find g ∧ sv.hndlNPages.find g = tv.hndlNPages.find g := by
  constructor
  · apply h.addr
    intro j a hj
    apply hg j
    rw [hj]
    rfl
  · exact h.pages g hg

lemma SpacesAgree.mmapped (h : SpacesAgree pkts stage sp tp) (hi : ∀ a, stage i ≠ .mapped a) {a : Nat}
    (hlen : span (pkts i) ≠ 0) (ha : sp.MmapAnswer (span (pkts i)) (some a)) :
    SpacesAgree pkts (Function.update stage i (.mapped a)) (sp.mmap (span (pkts i)) (some a)).2 tp := by
  obtain ⟨hne, hal, hb, hfree⟩ := ha a rfl
  have hst : ∀ j b, Function.update stage i (.mapped a) j = .mapped b ↔
      (j = i ∧ b = a) ∨ (j ≠ i ∧ stage j = .mapped b) := by
    intro j b
    by_cases hji : j = i
    · subst hji
      simp [eq_comm]
    · simp [hji]
  have hold : ∀ j b x, stage j = .mapped b → inRegion b (span (pkts j)) x = true →
      sp.mapped x = true := by
    intro j b x hj hx
    exact (h.mapped x).mpr (Or.inr ⟨j, b, hj, hx⟩)
  have hclash : ∀ j b x, stage j = .mapped b → inRegion b (span (pkts j)) x = true →
      inRegion a (span (pkts i)) x = false := by
    intro j b x hj hx
    by_contra hc
    have hm := hold j b x hj hx
    rw [hfree x (by simpa using hc)] at hm
    cases hm
  rw [sp.mmap_snd hlen]
  constructor
  · intro j b hj
    rcases (hst j b).mp hj with ⟨rfl, rfl⟩ | ⟨-, hj⟩
    · refine ⟨hlen, ?_⟩
      intro c hc
      cases hc
      refine ⟨hne, hal, hb, ?_⟩
      intro x hx
      by_contra hc
      have hm := (h.mapped x).mpr (Or.inl (by simpa using hc))
      rw [hfree x hx] at hm
      cases hm
    · exact h.placed j b hj
  · intro j b x hj hx
    dsimp only
    rcases (hst j b).mp hj with ⟨rfl, rfl⟩ | ⟨-, hj⟩
    · rw [if_pos hx]
    · rw [hclash j b x hj hx]
      exact h.zeroed j b x hj hx
  · intro j k b c x hj hk hjk hx
    rcases (hst j b).mp hj with ⟨rfl, rfl⟩ | ⟨-, hj'⟩
    · rcases (hst k c).mp hk with ⟨rfl, -⟩ | ⟨-, hk'⟩
      · exact (hjk rfl).elim
      · by_contra hc
        have hxb := hclash k c x hk' (by simpa using hc)
        rw [hx] at hxb
        cases hxb
    · rcases (hst k c).mp hk with ⟨rfl, rfl⟩ | ⟨-, hk'⟩
      · exact hclash j b x hj' hx
      · exact h.apart j k b c x hj' hk' hjk hx
  · intro x
    simp only [Bool.or_eq_true, h.mapped x]
    constructor
    · rintro (hx | hx | ⟨j, b, hj, hx⟩)
      · exact Or.inr ⟨i, a, (hst i a).mpr (Or.inl ⟨rfl, rfl⟩), hx⟩
      · exact Or.inl hx
      · have hji : j ≠ i := by
          rintro rfl
          exact hi b hj
        exact Or.inr ⟨j, b, (hst j b).mpr (Or.inr ⟨hji, hj⟩), hx⟩
    · rintro (hx | ⟨j, b, hj, hx⟩)
      · exact Or.inr (Or.inl hx)
      · rcases (hst j b).mp hj with ⟨rfl, rfl⟩ | ⟨-, hj⟩
        · exact Or.inl hx
        · exact Or.inr (Or.inr ⟨j, b, hj, hx⟩)
  · intro x hx
    have hxa := hx i a ((hst i a).mpr (Or.inl ⟨rfl, rfl⟩))
    dsimp only
    rw [hxa]
    apply h.mem
    intro j b hj
    have hji : j ≠ i := by
      rintro rfl
      exact hi b hj
    exact hx j b ((hst j b).mpr (Or.inr ⟨hji, hj⟩))

lemma SpacesAgree.numbered (h : SpacesAgree pkts stage sp tp) {a : Nat} (hi : stage i = .mapped a)
    (hq : ∀ b, q ≠ .mapped b) :
    SpacesAgree pkts (Function.update stage i q) sp (tp.mmap (span (pkts i)) (some a)).2 := by
  obtain ⟨hlen, -⟩ := h.placed i a hi
  have hst : ∀ j b, Function.update stage i q j = .mapped b ↔ j ≠ i ∧ stage j = .mapped b := by
    intro j b
    by_cases hji : j = i
    · subst hji
      simp [hq b]
    · simp [hji]
  rw [tp.mmap_snd hlen]
  constructor
  · intro j b hj
    obtain ⟨hji, hj⟩ := (hst j b).mp hj
    obtain ⟨hlenj, hans⟩ := h.placed j b hj
    refine ⟨hlenj, ?_⟩
    intro c hc
    obtain ⟨hne, hal, hb, hfree⟩ := hans c hc
    cases hc
    refine ⟨hne, hal, hb, ?_⟩
    intro x hx
    simp only [Bool.or_eq_false_iff]
    exact ⟨h.apart j i b a x hj hi hji hx, hfree x hx⟩
  · intro j b x hj hx
    exact h.zeroed j b x ((hst j b).mp hj).2 hx
  · intro j k b c x hj hk hjk hx
    exact h.apart j k b c x ((hst j b).mp hj).2 ((hst k c).mp hk).2 hjk hx
  · intro x
    simp only [Bool.or_eq_true, h.mapped x]
    constructor
    · rintro (hx | ⟨j, b, hj, hx⟩)
      · exact Or.inl (Or.inr hx)
      · by_cases hji : j = i
        · subst hji
          rw [hi] at hj
          cases hj
          exact Or.inl (Or.inl hx)
        · exact Or.inr ⟨j, b, (hst j b).mpr ⟨hji, hj⟩, hx⟩
    · rintro ((hx | hx) | ⟨j, b, hj, hx⟩)
      · exact Or.inr ⟨i, a, hi, hx⟩
      · exact Or.inl hx
      · exact Or.inr ⟨j, b, ((hst j b).mp hj).2, hx⟩
  · intro x hx
    dsimp only
    by_cases hxa : inRegion a (span (pkts i)) x = true
    · rw [if_pos hxa]
      exact h.zeroed i a x hi hxa
    · rw [if_neg hxa]
      apply h.mem
      intro j b hj
      by_cases hji : j = i
      · subst hji
        rw [hi] at hj
        cases hj
        simpa using hxa
      · exact hx j b ((hst j b).mpr ⟨hji, hj⟩)

omit [DecidableEq ι] in
lemma SpacesAgree.outside (h : SpacesAgree pkts stage sp tp) {x : Nat} (hx : tp.mapped x = true)
    (j : ι) (b : Nat) (hj : stage j = .mapped b) : inRegion b (span (pkts j)) x = false := by
  by_contra hc
  have hfree := ((h.placed j b hj).2 b rfl).2.2.2 x (by simpa using hc)
  rw [hx] at hfree
  cases hfree

omit [DecidableEq ι] in
lemma SpacesAgree.memcpyFrom (h : SpacesAgree pkts stage sp tp) {b : Nat}
    (hb : ∀ x, b ≤ x → x < b + 4096 → tp.mapped x = true) : sp.memcpyFrom b = tp.memcpyFrom b := by
  funext k
  have hk := k.isLt
  unfold AddressSpace.memcpyFrom
  apply h.mem
  exact h.outside (hb _ (by omega) (by omega))

omit [DecidableEq ι] in
lemma SpacesAgree.memcpyTo (h : SpacesAgree pkts stage sp tp) {b : Nat} (d : Page)
    (hb : ∀ x, b ≤ x → x < b + 4096 → tp.mapped x = true) :
    SpacesAgree pkts stage (sp.memcpyTo b d) (tp.memcpyTo b d) := by
  constructor
  · exact h.placed
  · intro j c x hj hx
    unfold AddressSpace.memcpyTo
    dsimp only
    have hne : ¬(b ≤ x ∧ x - b < 4096) := by
      intro hin
      have hout := h.outside (hb x hin.1 (by omega)) j c hj
      rw [hx] at hout
      cases hout
    rw [dif_neg hne]
    exact h.zeroed j c x hj hx
  · exact h.apart
  · exact h.mapped
  · intro x hx
    unfold AddressSpace.memcpyTo
    dsimp only
    split
    · rfl
    · exact h.mem x hx

/-- The shared server `w` and the server `v` of the calls in turn. No `alloc` in progress has a
handle that a call past its check is for. -/
structure Coupled (pkts : ι → Packet) (stage : ι → Stage) (w v : Host) : Prop where
  maps : MapsAgree pkts stage w.server v.server
  spaces : SpacesAgree pkts stage w.space v.space
  knows : ∀ i, (stage i).Knows (pkts i) v.server
  named : ∀ i j g, (stage i).naming (pkts i) = some g → (stage j).entering ≠ some g
  store : ∃ st, Refines v st

variable {w w' v : Host}

lemma named_update (h : ∀ i j g, (stage i).naming (pkts i) = some g → (stage j).entering ≠ some g)
    (hn : ∀ g, q.naming (pkts i) = some g → ∀ j, (stage j).entering ≠ some g)
    (he : ∀ g, q.entering = some g → ∀ j, (stage j).naming (pkts j) ≠ some g)
    (hq : ∀ g, q.naming (pkts i) = some g → q.entering ≠ some g) (j k : ι) (g : Handle)
    (hj : (Function.update stage i q j).naming (pkts j) = some g) :
    (Function.update stage i q k).entering ≠ some g := by
  by_cases hji : j = i
  · subst hji
    rw [Function.update_self] at hj
    by_cases hkj : k = j
    · subst hkj
      rw [Function.update_self]
      exact hq g hj
    · rw [Function.update_of_ne hkj]
      exact hn g hj k
  · rw [Function.update_of_ne hji] at hj
    by_cases hki : k = i
    · subst hki
      rw [Function.update_self]
      intro hk
      exact he g hk j hj
    · rw [Function.update_of_ne hki]
      exact h j k g hj

lemma knows_update {sv : Server} (h : ∀ j, (stage j).Knows (pkts j) sv) (hq : q.Knows (pkts i) sv)
    (j : ι) : (Function.update stage i q j).Knows (pkts j) sv := by
  by_cases hji : j = i
  · subst hji
    rw [Function.update_self]
    exact hq
  · rw [Function.update_of_ne hji]
    exact h j

lemma Coupled.move (h : Coupled pkts stage w v) (ho : (stage i).entering = none)
    (hm : ∀ a, stage i ≠ .mapped a) (hqe : q.entering = none) (hqm : ∀ a, q ≠ .mapped a)
    (hk : q.Knows (pkts i) v.server)
    (hn : ∀ g, q.naming (pkts i) = some g → ∀ j, (stage j).entering ≠ some g) :
    Coupled pkts (Function.update stage i q) w v where
  maps := h.maps.move ho hqe
  spaces := h.spaces.move hm hqm
  knows := knows_update h.knows hk
  named := named_update h.named hn (by simp [hqe]) (by simp [hqe])
  store := h.store

lemma Coupled.mmapped (h : Coupled pkts stage w v) (hi : stage i = .start) {a : Nat}
    (hlen : span (pkts i) ≠ 0) (ha : w.space.MmapAnswer (span (pkts i)) (some a)) :
    Coupled pkts (Function.update stage i (.mapped a))
      { w with space := (w.space.mmap (span (pkts i)) (some a)).2 } v where
  maps := h.maps.move (by rw [hi]; rfl) rfl
  spaces := h.spaces.mmapped (by simp [hi]) hlen ha
  knows := knows_update h.knows trivial
  named := named_update h.named (by simp [Stage.naming]) (by simp [Stage.entering])
    (by simp [Stage.naming])
  store := h.store

/-- An `alloc` is given its handle: this is where it takes effect. -/
lemma Coupled.numbered (h : Coupled pkts stage w v) {a : Nat} (hi : stage i = .mapped a)
    (hp : Plainly (pkts i)) (h0 : (pkts i).action = 0)
    (hc : w.server.handleCount.toNat + 1 < 2 ^ 32) :
    Coupled pkts (Function.update stage i (.numbered a (handleOfCount w.server.handleCount)))
      { w with server.handleCount := w.server.handleCount + 1 }
      ⟨Server.alloced v.server (pkts i).npages a, (v.space.mmap (span (pkts i)) (some a)).2⟩ := by
  obtain ⟨st, hR⟩ := h.store
  obtain ⟨hlen, hans⟩ := h.spaces.placed i a hi
  have hfresh := HandlesBelow.fresh_handle hR.below
  have hspan : span (pkts i) = 4096 * (pkts i).npages.toNat := by
    unfold span
    rw [hp.size, toNat_mul_4096 (hp.small h0)]
  constructor
  · exact h.maps.numbered hi hR.inStep hR.below
  · exact h.spaces.numbered hi (by simp)
  · apply knows_update (q := .numbered a _) _ trivial
    intro j
    apply (h.knows j).mono
    intro b n hl
    refine live_alloced.mpr (Or.inr ⟨?_, hl⟩)
    intro hg
    rw [hg] at hl
    exact absurd (hl.1.symm.trans hfresh) (by simp)
  · apply named_update h.named
    · simp [Stage.naming]
    · intro g hg j hj
      apply (h.knows j).live hj
      rw [← Option.some.inj hg, h.maps.count]
      exact hfresh
    · simp [Stage.naming]
  · rw [hspan] at hans ⊢
    rw [h.maps.count] at hc
    refine ⟨_, hR.alloced (npages_ne_zero_of_mul hlen) (hp.small h0) hans hc⟩

lemma Coupled.addressed (h : Coupled pkts stage w v) {a : Nat} {g : Handle}
    (hi : stage i = .numbered a g) :
    Coupled pkts (Function.update stage i (.addressed g))
      { w with server.addrMap := w.server.addrMap.set g a } v where
  maps := h.maps.addressed hi
  spaces := h.spaces.move (by simp [hi]) (by simp)
  knows := knows_update h.knows trivial
  named := by
    apply named_update h.named
    · simp [Stage.naming]
    · intro k hk j hj
      apply h.named j i k hj
      rw [hi]
      exact hk
    · simp [Stage.naming]
  store := h.store

lemma Coupled.entered (h : Coupled pkts stage w v) {g : Handle} (reply : Packet)
    (hi : stage i = .addressed g) :
    Coupled pkts (Function.update stage i (.done reply))
      { w with server.hndlNPages := w.server.hndlNPages.set g (pkts i).npages } v where
  maps := h.maps.entered hi
  spaces := h.spaces.move (by simp [hi]) (by simp)
  knows := knows_update h.knows trivial
  named := named_update h.named (by simp [Stage.naming]) (by simp [Stage.entering])
    (by simp [Stage.naming])
  store := h.store

omit [DecidableEq ι] in
lemma Coupled.live (h : Coupled pkts stage w v) {g : Handle} (hn : (stage i).naming (pkts i) = some g)
    {a : Nat} {n : UInt32} (hl : Live v.server g a n) : Live w.server g a n := by
  obtain ⟨haddr, hpages⟩ := h.maps.settled (fun j => h.named i j g hn)
  exact ⟨haddr.trans hl.1, hpages.trans hl.2⟩

omit [DecidableEq ι] in
lemma Coupled.page_mapped (h : Coupled pkts stage w v) (hp : Plainly (pkts i)) {a : Nat} {n : UInt32}
    (hl : Live v.server (pkts i).hndl a n) (ho : (pkts i).offset < n) (x : Nat)
    (hx : Server.addrWithOffset a (pkts i).size (pkts i).offset ≤ x)
    (hx' : x < Server.addrWithOffset a (pkts i).size (pkts i).offset + 4096) :
    v.space.mapped x = true := by
  obtain ⟨st, hR⟩ := h.store
  obtain ⟨pages, -, hh⟩ := hR.live _ a n hl
  have hlt : (pkts i).offset.toNat < n.toNat := UInt32.lt_iff_toNat_lt.mp ho
  rw [hp.size, addrWithOffset_page hh.small ho hh.bound] at hx hx'
  apply hh.mapped x
  · omega
  · omega

/-- A `write` copies its page: this is where it takes effect. -/
lemma Coupled.written (h : Coupled pkts stage w v) {a : Nat} {n : UInt32}
    (hi : stage i = .located n a) (hp : Plainly (pkts i)) (hl : Live v.server (pkts i).hndl a n)
    (ho : (pkts i).offset < n) :
    Coupled pkts (Function.update stage i (.done (pkts i)))
      ⟨w.server, w.space.memcpyTo (Server.addrWithOffset a (pkts i).size (pkts i).offset) (pkts i).data⟩
      ⟨v.server,
        v.space.memcpyTo (Server.addrWithOffset a (pkts i).size (pkts i).offset) (pkts i).data⟩ where
  maps := h.maps.move (by rw [hi]; rfl) rfl
  spaces := by
    have hs := h.spaces.memcpyTo (pkts i).data (h.page_mapped hp hl ho)
    exact hs.move (by simp [hi]) (by simp)
  knows := knows_update h.knows trivial
  named := named_update h.named (by simp [Stage.naming]) (by simp [Stage.entering])
    (by simp [Stage.naming])
  store := by
    obtain ⟨st, hR⟩ := h.store
    obtain ⟨pages, hst, -⟩ := hR.live _ a n hl
    rw [hp.size]
    exact ⟨_, hR.written hl hst ho (pkts i).data⟩

/-- Call `i` is made on the server of the calls in turn and replies `reply`. -/
def Turn (pkts : ι → Packet) (v : Host) (i : ι) (reply : Packet) (v' : Host) : Prop :=
  ∃ os, Host.Step v ⟨os, pkts i, reply⟩ v'

/-- After a step of call `i` the calls in turn are as before, or call `i` is made next. -/
def Progress (pkts : ι → Packet) (stage : ι → Stage) (i : ι) (q : Stage) (w' v : Host) : Prop :=
  ∃ v', Coupled pkts (Function.update stage i q) w' v' ∧
    ((v' = v ∧ q.reply (pkts i) = (stage i).reply (pkts i)) ∨
      (stage i).reply (pkts i) = none ∧
        ∃ reply, q.reply (pkts i) = some reply ∧ Turn pkts v i reply v')

omit [DecidableEq ι] in
lemma Turn.of_handle {reply : Packet} {v' : Host}
    (hh : v.handle ⟨none, true⟩ (pkts i) = (reply, v')) : Turn pkts v i reply v' := by
  refine ⟨⟨none, true⟩, ?_, hh⟩
  intro _ a hm
  cases hm

lemma Coupled.settle (h : Coupled pkts stage w v) {reply : Packet} (ho : (stage i).entering = none)
    (hm : ∀ a, stage i ≠ .mapped a) (hr : (stage i).reply (pkts i) = none)
    (hh : v.handle ⟨none, true⟩ (pkts i) = (reply, v)) : Progress pkts stage i (.done reply) w v := by
  refine ⟨v, ?_, Or.inr ⟨hr, reply, rfl, Turn.of_handle hh⟩⟩
  apply h.move ho hm rfl
  · simp
  · trivial
  · simp [Stage.naming]

lemma Coupled.look (h : Coupled pkts stage w v) {g : Handle}
    (hn : (stage i).naming (pkts i) = some g) (hq : q.naming (pkts i) = some g)
    (hk : q.Knows (pkts i) v.server) : Coupled pkts (Function.update stage i q) w v := by
  apply h.move
  · cases hs : stage i <;> simp_all [Stage.naming, Stage.entering]
  · intro a hs
    simp [hs, Stage.naming] at hn
  · cases q <;> simp_all [Stage.naming, Stage.entering]
  · rintro a rfl
    simp [Stage.naming] at hq
  · exact hk
  · intro g' hg j
    obtain rfl : g = g' := Option.some.inj (hq.symm.trans hg)
    exact h.named i j g hn

lemma Coupled.step (h : Coupled pkts stage w v) (hp : Plainly (pkts i)) {op : ServerOp} {r : op.Res}
    (hc : Course (pkts i) (stage i) op r q) (he : op.Effect w r w')
    (hroom : op = .getNewHandle → w.server.handleCount.toNat + 1 < 2 ^ 32)
    (hnamed : ∀ g, op = .containsKey g → ∀ j, (stage j).entering ≠ some g) :
    Progress pkts stage i q w' v := by
  obtain ⟨os, hos, hexec⟩ := he
  obtain ⟨st, hR⟩ := h.store
  have hknows := h.knows i
  generalize hi : stage i = q₀ at hc hknows
  cases hc with
  | mmapFailed ha =>
    obtain ⟨hnone, rfl⟩ := Prod.mk.inj hexec
    rw [AddressSpace.mmap_none_snd _ _ _ hnone]
    exact h.settle (by rw [hi]; rfl) (by simp [hi]) (by rw [hi]; rfl)
      (handle_alloc_refused _ v (pkts i) ha rfl)
  | mmapped ha a =>
    obtain ⟨hsome, rfl⟩ := Prod.mk.inj hexec
    obtain ⟨hlen, hans⟩ := AddressSpace.mmap_some_fst _ _ _ _ hsome
    have hadm := hos _ rfl
    rw [hans] at hadm ⊢
    exact ⟨v, h.mmapped hi hlen hadm, Or.inl ⟨rfl, by rw [hi]; rfl⟩⟩
  | newHandle ha a n =>
    obtain ⟨rfl, rfl⟩ := Prod.mk.inj hexec
    obtain ⟨hlen, hans⟩ := h.spaces.placed i a hi
    refine ⟨_, h.numbered hi hp ha (hroom rfl), Or.inr ⟨by rw [hi]; rfl, _, rfl, ?_⟩⟩
    refine ⟨⟨some a, true⟩, fun _ => hans, ?_⟩
    rw [h.maps.count]
    exact handle_alloc_granted _ v (pkts i) ha hlen rfl
  | setAddr a g =>
    obtain ⟨-, rfl⟩ := Prod.mk.inj hexec
    exact ⟨v, h.addressed hi, Or.inl ⟨rfl, by rw [hi]; rfl⟩⟩
  | setPages g =>
    obtain ⟨-, rfl⟩ := Prod.mk.inj hexec
    exact ⟨v, h.entered _ hi, Or.inl ⟨rfl, by rw [hi]; rfl⟩⟩
  | missing ha =>
    obtain ⟨hfound, rfl⟩ := Prod.mk.inj hexec
    have hc : ¬w.server.addrMap.Contains (pkts i).hndl := of_decide_eq_false hfound
    have hnone : w.server.addrMap.find (pkts i).hndl = none := not_not.mp hc
    rw [(h.maps.settled (hnamed _ rfl)).1] at hnone
    exact h.settle (by rw [hi]; rfl) (by simp [hi]) (by rw [hi]; rfl)
      (handle_invalid _ v (pkts i) ha hnone)
  | found ha =>
    obtain ⟨hfound, rfl⟩ := Prod.mk.inj hexec
    have hc : w.server.addrMap.Contains (pkts i).hndl := of_decide_eq_true hfound
    have hsome : w.server.addrMap.find (pkts i).hndl ≠ none := hc
    rw [(h.maps.settled (hnamed _ rfl)).1] at hsome
    refine ⟨v, ?_, Or.inl ⟨rfl, by rw [hi]; rfl⟩⟩
    apply h.move (by rw [hi]; rfl) (by simp [hi]) rfl (by simp)
    · exact hR.inStep.live hsome
    · intro g hg
      cases hg
      exact hnamed _ rfl
  | size n ho =>
    obtain ⟨a, m, hl⟩ := hknows
    have hw := h.live (by rw [hi]; rfl) hl
    obtain ⟨rfl, rfl⟩ := Prod.mk.inj (hexec.symm.trans (run_getHndlNPages_live os w hw))
    exact ⟨v, h.look (by rw [hi]; rfl) rfl ⟨ho, a, hl⟩, Or.inl ⟨rfl, by rw [hi]; rfl⟩⟩
  | outside ha n ho =>
    obtain ⟨a, m, hl⟩ := hknows
    have hw := h.live (by rw [hi]; rfl) hl
    obtain ⟨rfl, rfl⟩ := Prod.mk.inj (hexec.symm.trans (run_getHndlNPages_live os w hw))
    refine ⟨v, h.look (by rw [hi]; rfl) rfl ⟨a, n, hl⟩, Or.inr ⟨by rw [hi]; rfl, _, rfl, ?_⟩⟩
    exact Turn.of_handle (handle_outside _ v (pkts i) ha hl ho)
  | refuse b =>
    obtain ⟨a, m, hl⟩ := hknows
    have hw := h.live (by rw [hi]; rfl) hl
    obtain ⟨-, rfl⟩ := Prod.mk.inj (hexec.symm.trans (run_getAddrMap_live os w hw))
    refine ⟨v, ?_, Or.inl ⟨rfl, by rw [hi]; rfl⟩⟩
    apply h.move (by rw [hi]; rfl) (by simp [hi]) rfl (by simp)
    · trivial
    · simp [Stage.naming]
  | locate n b =>
    obtain ⟨ho, a, hl⟩ := hknows
    have hw := h.live (by rw [hi]; rfl) hl
    obtain ⟨rfl, rfl⟩ := Prod.mk.inj (hexec.symm.trans (run_getAddrMap_live os w hw))
    exact ⟨v, h.look (by rw [hi]; rfl) rfl ⟨ho, hl⟩, Or.inl ⟨rfl, by rw [hi]; rfl⟩⟩
  | copyFrom ha n a d =>
    obtain ⟨ho, hl⟩ := hknows
    obtain ⟨rfl, rfl⟩ := Prod.mk.inj hexec
    apply h.settle (by rw [hi]; rfl) (by simp [hi]) (by rw [hi]; rfl)
    rw [h.spaces.memcpyFrom (h.page_mapped hp hl ho)]
    exact handle_read_live _ v (pkts i) ha hl ho
  | copyTo ha n a =>
    obtain ⟨ho, hl⟩ := hknows
    obtain ⟨-, rfl⟩ := Prod.mk.inj hexec
    refine ⟨_, h.written hi hp hl ho, Or.inr ⟨by rw [hi]; rfl, _, rfl, ?_⟩⟩
    exact Turn.of_handle (handle_write_live _ v (pkts i) ha hl ho)

end Coupling

/-! ### Runs -/

def enters : ServerOp → Option Handle
  | .setAddrMap h _ => some h
  | .setHndlNPages h _ => some h
  | _ => none

def checks : ServerOp → Option Handle
  | .containsKey h => some h
  | _ => none

section Runs

variable {ι : Type} [DecidableEq ι] {pkts : ι → Packet}

/-- The counter does not wrap around, and no call begins for a handle that an `alloc` which has
not returned was given. -/
def Orderly (c : Calls ι) (op : ServerOp) : Prop :=
  (handsOut op = true → c.state.server.handleCount.toNat + 1 < 2 ^ 32) ∧
    ∀ g ∈ checks op, ∀ i, (nextOp (c.threads i)).bind enters ≠ some g

instance [Fintype ι] (c : Calls ι) (op : ServerOp) : Decidable (Orderly c op) :=
  inferInstanceAs (Decidable (_ ∧ ∀ g ∈ checks op, _))

lemma OnWay.next_enters {p : Packet} {x : ServerM Packet} {q : Stage} (h : OnWay p x q) {g : Handle}
    (hg : q.entering = some g) : (nextOp x).bind enters = some g := by
  cases x with
  | pure reply =>
    obtain rfl : q = .done reply := h
    cases hg
  | call op next =>
    have hres : Nonempty op.Res := by
      cases op <;> exact ⟨default⟩
    obtain ⟨q', hc, -⟩ := h hres.some
    change enters op = some g
    generalize hres.some = r at hc
    cases hc with
    | setAddr a h => exact hg
    | setPages h => exact hg
    | _ => cases hg

lemma OnWay.start {p : Packet} (hp : Plainly p) {q : Stage} (h : OnWay p (Server.handle p) q) :
    q = .start := by
  rcases hp.action with ha | ha | ha
  · have hr : Server.handle p = Server.handleAlloc p := by simp [Server.handle, ha]
    rw [hr, OnWay, Server.handleAlloc, Program.follows_bind] at h
    obtain ⟨q', hc, -⟩ := h none
    cases hc
    rfl
  · have hr : Server.handle p = Server.handleRead p := by simp [Server.handle, ha]
    rw [hr, OnWay, Server.handleRead, Program.follows_bind] at h
    obtain ⟨q', hc, -⟩ := h false
    cases hc
    rfl
  · have hr : Server.handle p = Server.handleWrite p := by simp [Server.handle, ha]
    rw [hr, OnWay, Server.handleWrite, Program.follows_bind] at h
    obtain ⟨q', hc, -⟩ := h false
    cases hc
    rfl

def Simulated (pkts : ι → Packet) (c : Calls ι) (v : Host) (ρ : ι → Option Packet) : Prop :=
  ∃ stage : ι → Stage, (∀ i, OnWay (pkts i) (c.threads i) (stage i)) ∧
    Coupled pkts stage c.state v ∧ ∀ i, ρ i = (stage i).reply (pkts i)

omit [DecidableEq ι] in
lemma simulated_init (hp : ∀ i, Plainly (pkts i)) {w : Host} {st : PageStore} (hR : Refines w st) :
    Simulated pkts (Calls.init pkts w) w (fun _ => none) := by
  refine ⟨fun _ => .start, fun i => handle_course (pkts i) (hp i).action, ?_, fun _ => rfl⟩
  constructor
  · constructor <;> simp [Stage.entering, Calls.init]
  · constructor <;> simp [Calls.init]
  · exact fun _ => trivial
  · simp [Stage.naming]
  · exact ⟨st, hR⟩

/-- Every operation keeps the relation. -/
lemma committing (hp : ∀ i, Plainly (pkts i)) :
    Committing (Turn pkts) (fun i => Server.handle (pkts i))
      (fun c a c' => Calls.Step c a c' ∧ Orderly c a.op) (Simulated pkts) where
  step c v ρ a c' hR hs := by
    obtain ⟨stage, hway, hco, hρ⟩ := hR
    obtain ⟨hstep, hroom, hnamed⟩ := hs
    obtain ⟨q, hcourse, hway'⟩ := hstep.follows hway
    obtain ⟨next, -, heff, -⟩ := hstep
    have hn : ∀ g, a.op = .containsKey g → ∀ j, (stage j).entering ≠ some g := by
      intro g hop j hj
      exact hnamed g (by rw [hop]; rfl) j ((hway j).next_enters hj)
    have hr : a.op = .getNewHandle → c.state.server.handleCount.toNat + 1 < 2 ^ 32 := by
      intro hop
      apply hroom
      rw [hop]
      rfl
    obtain ⟨v', hco', ⟨rfl, hsame⟩ | ⟨hnone, reply, hreply, hturn⟩⟩ :=
      hco.step (hp a.thread) hcourse heff hr hn
    · left
      refine ⟨_, hway', hco', ?_⟩
      intro i
      by_cases hi : i = a.thread
      · subst hi
        rw [Function.update_self, hsame]
        exact hρ a.thread
      · rw [Function.update_of_ne hi]
        exact hρ i
    · right
      refine ⟨(hρ a.thread).trans hnone, reply, v', hturn, _, hway', hco', ?_⟩
      intro i
      by_cases hi : i = a.thread
      · subst hi
        rw [Function.update_self, Function.update_self, hreply]
      · rw [Function.update_of_ne hi, Function.update_of_ne hi]
        exact hρ i
  returned c v ρ i reply hR hi := by
    obtain ⟨stage, hway, -, hρ⟩ := hR
    have hdone := hway i
    rw [hi] at hdone
    obtain hdone : stage i = .done reply := hdone
    rw [hρ i, hdone]
    rfl
  begun c v ρ i hR hi := by
    obtain ⟨stage, hway, -, hρ⟩ := hR
    have hstart := hway i
    rw [hi] at hstart
    rw [hρ i, hstart.start (hp i)]
    rfl

omit [DecidableEq ι] in
lemma Simulated.quiescent (hp : ∀ i, Plainly (pkts i)) {c : Calls ι} {v : Host} {ρ : ι → Option Packet}
    (h : Simulated pkts c v ρ) (hq : c.Quiescent pkts) : c.state = v := by
  obtain ⟨stage, hway, hco, -⟩ := h
  have hrest : ∀ i, stage i = .start ∨ ∃ reply, stage i = .done reply := by
    intro i
    have hi := hway i
    rcases hq i with hbegin | ⟨reply, hdone⟩
    · rw [hbegin] at hi
      exact Or.inl (hi.start (hp i))
    · rw [hdone] at hi
      exact Or.inr ⟨reply, hi⟩
  have hent : ∀ i g, (stage i).entering ≠ some g := by
    intro i g
    rcases hrest i with hi | ⟨reply, hi⟩ <;> simp [hi, Stage.entering]
  have hmap : ∀ i a, stage i ≠ .mapped a := by
    intro i a
    rcases hrest i with hi | ⟨reply, hi⟩ <;> simp [hi]
  have haddr : c.state.server.addrMap = v.server.addrMap :=
    UnorderedMap.ext' (fun g => (hco.maps.settled (hent · g)).1)
  have hpages : c.state.server.hndlNPages = v.server.hndlNPages :=
    UnorderedMap.ext' (fun g => (hco.maps.settled (hent · g)).2)
  have hmapped : c.state.space.mapped = v.space.mapped := by
    funext x
    rw [Bool.eq_iff_iff, hco.spaces.mapped x]
    simp [hmap]
  have hmem : c.state.space.mem = v.space.mem := by
    funext x
    exact hco.spaces.mem x (fun i a hi => (hmap i a hi).elim)
  have hcount := hco.maps.count
  generalize c.state = w at *
  obtain ⟨⟨_, _, _⟩, ⟨_, _⟩⟩ := w
  obtain ⟨⟨_, _, _⟩, ⟨_, _⟩⟩ := v
  simp_all only

/-- Calls of `handle` that allocate, read and write, on a server that is in use, behave as if they
were made one after another in an order that agrees with real time. Reads and writes are for
handles whose `alloc` has returned, as clients learn handles from replies. -/
theorem concurrent_calls_linearize (hp : ∀ i, Plainly (pkts i)) {w : Host} {st : PageStore}
    (hR : Refines w st) {tr : CallHistory ι} {c : Calls ι}
    (hr : Run Calls.Step (Calls.init pkts w) tr c) (ho : ∀ x ∈ tr, Orderly x.1 x.2.op) :
    ∃ seq w', Linearization (Turn pkts) (fun i => Server.handle (pkts i)) w tr c seq w' ∧
      (c.Quiescent pkts → c.state = w') := by
  have hrun := hr.restrict (C := fun c a => Orderly c a.op) ho
  obtain ⟨seq, w', ρ, hlin, hsim⟩ := (committing hp).linearize hrun (simulated_init hp hR)
  exact ⟨seq, w', hlin, hsim.quiescent hp⟩

end Runs

section Example

/-- A call that reads a page and one that writes it. -/
def readAndWrite : Bool → Packet
  | false => ⟨0, 0, 4096, 0, 1, zeroPage, 0⟩
  | true => ⟨0, 0, 4096, 0, 2, fun _ => 7, 0⟩

/-- The server once it has one page, of handle 0. -/
def pageServer : Host := ((Host.fresh (fun _ => 0)).handle ⟨some 4096, true⟩ ⟨0, 1, 4096, 0, 0, zeroPage, 0⟩).2

/-- The write begins after the read and copies its page before it. -/
def writeOvertakes : List (Os × Bool) :=
  [false, false, true, true, false, true, true, false].map (fun i => (⟨none, true⟩, i))

lemma pageServer_refines : ∃ st, Refines pageServer st := by
  have hstep : Host.Step (Host.fresh (fun _ => 0))
      ⟨⟨some 4096, true⟩, ⟨0, 1, 4096, 0, 0, zeroPage, 0⟩, ⟨0, 1, 4096, 0, 0, zeroPage, 0⟩⟩ pageServer :=
    ⟨fun _ => fresh_mmapAnswer _ (UInt32.toNat_lt _), rfl⟩
  obtain ⟨st, -, hR⟩ := (fresh_refines (fun _ => 0)).step rfl (fun _ => ⟨by decide, by decide⟩) hstep
  exact ⟨st, hR⟩

theorem write_overtaking_read_linearizes :
    ∃ tr c, Run Calls.Step (Calls.init readAndWrite pageServer) tr c ∧ tr.length = 8 ∧
      ∃ seq, Linearization (Turn readAndWrite) (fun i => Server.handle (readAndWrite i)) pageServer
        tr c seq c.state := by
  have hsome : ((Calls.init readAndWrite pageServer).execute writeOvertakes).map (fun y =>
      (y.1.length, decide (∀ x ∈ y.1, Orderly x.1 x.2.op),
        decide (∀ i, (nextOp (y.2.threads i)).isNone = true))) = some (8, true, true) := by
    decide +kernel
  obtain ⟨⟨tr, c⟩, hexec, hfacts⟩ := Option.map_eq_some_iff.mp hsome
  simp only [Prod.mk.injEq, decide_eq_true_eq] at hfacts
  obtain ⟨hlen, horder, hdone⟩ := hfacts
  have hrun := run_of_execute_calls hexec (by simp [writeOvertakes])
  have hplain : ∀ i, Plainly (readAndWrite i) := by
    intro i
    cases i <;> exact ⟨by decide, rfl, by decide⟩
  obtain ⟨st, hR⟩ := pageServer_refines
  obtain ⟨seq, w', hlin, hquiet⟩ := concurrent_calls_linearize hplain hR hrun horder
  rw [← hquiet (quiescent_of_nextOp hdone)] at hlin
  exact ⟨tr, c, hrun, hlen, seq, hlin⟩

end Example

end RemoteMemoryPool.Proofs
