import RemoteMemoryPool.Proofs.CallFlow

/-!
# The life of a handle under concurrent calls

A handle is given to one allocating call, which enters its address and then its number of
pages; it is ready until a call that frees it has unmapped its region, erased its address and
erased its number of pages. `Control` relates these stages to the two maps of the server and
to where the calls stand.
-/

namespace RemoteMemoryPool.Proofs

open Interaction

variable {ι : Type}

/-- A stage in the life of a handle, with the call that is responsible for the next one. -/
inductive Status (ι : Type)
  | absent
  | given (i : ι) (addr : Nat) (npages : UInt32)
  | addressed (i : ι) (addr : Nat) (npages : UInt32)
  | ready (addr : Nat) (npages : UInt32)
  | unmapped (i : ι)
  | erasing (i : ι)

namespace Status

/-- The entries of `addr_map` and `hndl_n_pages`. A lookup of another call may have inserted 0
before the number of pages is entered. -/
def Matches : Status ι → Option Nat → Option UInt32 → Prop
  | absent, addr, npages => addr = none ∧ npages = none
  | given _ _ _, addr, npages => addr = none ∧ npages = none
  | addressed _ a _, addr, npages => addr = some a ∧ (npages = none ∨ npages = some 0)
  | ready a n, addr, npages => addr = some a ∧ npages = some n
  | unmapped _, addr, npages => addr ≠ none ∧ npages ≠ none
  | erasing _, addr, npages => addr = none ∧ npages ≠ none

/-- The region of the handle, from its mapping to its unmapping. -/
def region : Status ι → Option (Nat × UInt32)
  | given _ a n => some (a, n)
  | addressed _ a n => some (a, n)
  | ready a n => some (a, n)
  | _ => none

def tag : Status ι → Option ι
  | given i _ _ => some i
  | addressed i _ _ => some i
  | unmapped i => some i
  | erasing i => some i
  | _ => none

/-- A lookup finds the region. -/
def Usable : Status ι → Prop
  | addressed _ _ _ => True
  | ready _ _ => True
  | _ => False

/-- The call responsible for the next stage stands where it makes it. -/
def Placed (pkts : ι → Packet) (pcs : ι → Pc) (h : Handle) : Status ι → Prop
  | given i a _ => pcs i = .numbered a h
  | addressed i _ _ => pcs i = .addressed h
  | unmapped i => pcs i = .unmapped ∧ (pkts i).hndl = h
  | erasing i => pcs i = .erasing ∧ (pkts i).hndl = h
  | _ => True

end Status

/-- What a call knows of the stage of its handle. -/
def Agrees (status : Handle → Status ι) (i : ι) (p : Packet) : Pc → Prop
  | .numbered a h => status h = .given i a p.npages
  | .addressed h => ∃ a, status h = .addressed i a p.npages
  | .checked => (status p.hndl).Usable
  | .sized n => (n = 0 ∧ (status p.hndl).Usable) ∨ ∃ a, status p.hndl = .ready a n
  | .located n a => status p.hndl = .ready a n ∧ p.offset < n
  | .freeChecked => (status p.hndl).Usable
  | .freeSized n => ∃ a, status p.hndl = .ready a n
  | .freeLocated n a => status p.hndl = .ready a n
  | .unmapped => status p.hndl = .unmapped i
  | .erasing => status p.hndl = .erasing i
  | _ => True

/-- The handle a call depends on where it stands. -/
def Pc.concerns (p : Packet) : Pc → Option Handle
  | .numbered _ h => some h
  | .addressed h => some h
  | .start => none
  | .mapped _ => none
  | .rechecking => none
  | .done => none
  | _ => some p.hndl

/-- The handle a call is about to move to its next stage. -/
def Pc.target (p : Packet) : Pc → Option Handle
  | .numbered _ h => some h
  | .addressed h => some h
  | .unmapped => some p.hndl
  | .erasing => some p.hndl
  | _ => none

/-- The maps, the calls and the stages of all handles fit together. -/
structure Control (pkts : ι → Packet) (pcs : ι → Pc) (status : Handle → Status ι) (s : Server) :
    Prop where
  matching : ∀ h, (status h).Matches (s.addrMap.find h) (s.hndlNPages.find h)
  agrees : ∀ i, Agrees status i (pkts i) (pcs i)
  placed : ∀ h, (status h).Placed pkts pcs h

lemma agrees_congr {status status' : Handle → Status ι} {i : ι} {p : Packet} {pc : Pc}
    (hag : Agrees status i p pc) (heq : ∀ h, pc.concerns p = some h → status' h = status h) :
    Agrees status' i p pc := by
  cases pc with
  | start => trivial
  | mapped a => trivial
  | rechecking => trivial
  | done => trivial
  | numbered a h =>
    rw [Agrees, heq h rfl]
    exact hag
  | addressed h =>
    rw [Agrees, heq h rfl]
    exact hag
  | _ =>
    rw [Agrees, heq p.hndl rfl]
    exact hag

lemma tag_or_usable {status : Handle → Status ι} {i : ι} {p : Packet} {pc : Pc} {h : Handle}
    (hag : Agrees status i p pc) (hc : pc.concerns p = some h) :
    (status h).tag = some i ∨ (status h).Usable := by
  cases pc with
  | start => cases hc
  | mapped a => cases hc
  | rechecking => cases hc
  | done => cases hc
  | numbered a k =>
    obtain rfl := Option.some.inj hc
    exact .inl (by rw [show status k = _ from hag]; rfl)
  | addressed k =>
    obtain rfl := Option.some.inj hc
    obtain ⟨a, ha⟩ := hag
    exact .inl (by rw [ha]; rfl)
  | checked =>
    obtain rfl := Option.some.inj hc
    exact .inr hag
  | freeChecked =>
    obtain rfl := Option.some.inj hc
    exact .inr hag
  | sized n =>
    obtain rfl := Option.some.inj hc
    rcases hag with ⟨-, hu⟩ | ⟨a, ha⟩
    · exact .inr hu
    · exact .inr (by rw [ha]; trivial)
  | located n a =>
    obtain rfl := Option.some.inj hc
    exact .inr (by rw [hag.1]; trivial)
  | freeSized n =>
    obtain rfl := Option.some.inj hc
    obtain ⟨a, ha⟩ := hag
    exact .inr (by rw [ha]; trivial)
  | freeLocated n a =>
    obtain rfl := Option.some.inj hc
    exact .inr (by rw [show status p.hndl = _ from hag]; trivial)
  | unmapped =>
    obtain rfl := Option.some.inj hc
    exact .inl (by rw [show status p.hndl = _ from hag]; rfl)
  | erasing =>
    obtain rfl := Option.some.inj hc
    exact .inl (by rw [show status p.hndl = _ from hag]; rfl)

lemma uses_of_concerns {status : Handle → Status ι} {i : ι} {p : Packet} {pc : Pc} {h : Handle}
    (hag : Agrees status i p pc) (hc : pc.concerns p = some h) (ht : (status h).tag ≠ some i) :
    p.hndl = h ∧ pc.target p = none := by
  cases pc with
  | start => cases hc
  | mapped a => cases hc
  | rechecking => cases hc
  | done => cases hc
  | numbered a k =>
    obtain rfl := Option.some.inj hc
    exact (ht (by rw [show status k = _ from hag]; rfl)).elim
  | addressed k =>
    obtain rfl := Option.some.inj hc
    obtain ⟨a, ha⟩ := hag
    exact (ht (by rw [ha]; rfl)).elim
  | unmapped =>
    obtain rfl := Option.some.inj hc
    exact (ht (by rw [show status p.hndl = _ from hag]; rfl)).elim
  | erasing =>
    obtain rfl := Option.some.inj hc
    exact (ht (by rw [show status p.hndl = _ from hag]; rfl)).elim
  | _ => exact ⟨Option.some.inj hc, rfl⟩

lemma target_of_tag {pkts : ι → Packet} {pcs : ι → Pc} {h : Handle} {st : Status ι} {i : ι}
    (hp : st.Placed pkts pcs h) (ht : st.tag = some i) : (pcs i).target (pkts i) = some h := by
  cases st with
  | absent => cases ht
  | ready a n => cases ht
  | given j a n =>
    obtain rfl := Option.some.inj ht
    rw [show pcs j = _ from hp]
    rfl
  | addressed j a n =>
    obtain rfl := Option.some.inj ht
    rw [show pcs j = _ from hp]
    rfl
  | unmapped j =>
    obtain rfl := Option.some.inj ht
    rw [hp.1, ← hp.2]
    rfl
  | erasing j =>
    obtain rfl := Option.some.inj ht
    rw [hp.1, ← hp.2]
    rfl

variable [DecidableEq ι]

lemma placed_update {pkts : ι → Packet} {pcs : ι → Pc} {h : Handle} {st : Status ι} {i : ι}
    (hp : st.Placed pkts pcs h) (ht : st.tag ≠ some i) (pc : Pc) :
    st.Placed pkts (Function.update pcs i pc) h := by
  cases st with
  | absent => trivial
  | ready a n => trivial
  | given j a n =>
    have hji : j ≠ i := fun hji => ht (by rw [hji]; rfl)
    simpa [Status.Placed, hji] using hp
  | addressed j a n =>
    have hji : j ≠ i := fun hji => ht (by rw [hji]; rfl)
    simpa [Status.Placed, hji] using hp
  | unmapped j =>
    have hji : j ≠ i := fun hji => ht (by rw [hji]; rfl)
    simpa [Status.Placed, hji] using hp
  | erasing j =>
    have hji : j ≠ i := fun hji => ht (by rw [hji]; rfl)
    simpa [Status.Placed, hji] using hp

/-- A call moves on and brings at most one handle to another stage. -/
lemma Control.move {pkts : ι → Packet} {pcs : ι → Pc} {status : Handle → Status ι} {s s' : Server}
    (hC : Control pkts pcs status s) {i : ι} {pc : Pc} {h : Handle} {st : Status ι}
    (htarget : ∀ k, (pcs i).target (pkts i) = some k → k = h)
    (hself : Agrees (Function.update status h st) i (pkts i) pc)
    (hothers : ∀ j, j ≠ i → (pcs j).concerns (pkts j) = some h →
      Agrees (Function.update status h st) j (pkts j) (pcs j))
    (hplaced : st.Placed pkts (Function.update pcs i pc) h)
    (hmatch : st.Matches (s'.addrMap.find h) (s'.hndlNPages.find h))
    (hsame : ∀ k, k ≠ h → s'.addrMap.find k = s.addrMap.find k ∧
      s'.hndlNPages.find k = s.hndlNPages.find k) :
    Control pkts (Function.update pcs i pc) (Function.update status h st) s' := by
  constructor
  · intro k
    by_cases hk : k = h
    · subst hk
      rw [Function.update_self]
      exact hmatch
    · rw [Function.update_of_ne hk, (hsame k hk).1, (hsame k hk).2]
      exact hC.matching k
  · intro j
    by_cases hj : j = i
    · subst hj
      rw [Function.update_self]
      exact hself
    · rw [Function.update_of_ne hj]
      by_cases hcon : (pcs j).concerns (pkts j) = some h
      · exact hothers j hj hcon
      · apply agrees_congr (hC.agrees j)
        intro k hk
        have hkh : k ≠ h := by
          rintro rfl
          exact hcon hk
        rw [Function.update_of_ne hkh]
  · intro k
    by_cases hk : k = h
    · subst hk
      rw [Function.update_self]
      exact hplaced
    · rw [Function.update_of_ne hk]
      apply placed_update (hC.placed k)
      intro htag
      exact hk (htarget k (target_of_tag (hC.placed k) htag))

lemma Control.stay {pkts : ι → Packet} {pcs : ι → Pc} {status : Handle → Status ι} {s s' : Server}
    (hC : Control pkts pcs status s) {i : ι} {pc : Pc} (htarget : (pcs i).target (pkts i) = none)
    (hself : Agrees status i (pkts i) pc)
    (hmatch : ∀ h, (status h).Matches (s'.addrMap.find h) (s'.hndlNPages.find h)) :
    Control pkts (Function.update pcs i pc) status s' := by
  constructor
  · exact hmatch
  · intro j
    by_cases hj : j = i
    · subst hj
      rw [Function.update_self]
      exact hself
    · rw [Function.update_of_ne hj]
      exact hC.agrees j
  · intro h
    apply placed_update (hC.placed h)
    intro htag
    rw [target_of_tag (hC.placed h) htag] at htarget
    cases htarget

omit [DecidableEq ι]

section Lookup

variable {pkts : ι → Packet} {pcs : ι → Pc} {status : Handle → Status ι} {s : Server} {h : Handle}

lemma Control.usable (hC : Control pkts pcs status s) (hfind : s.addrMap.find h ≠ none)
    (hnot : ∀ j, pcs j = .unmapped → (pkts j).hndl ≠ h) : (status h).Usable := by
  have hm := hC.matching h
  have hp := hC.placed h
  cases hst : status h with
  | addressed j a n => trivial
  | ready a n => trivial
  | unmapped j =>
    rw [hst] at hp
    exact (hnot j hp.1 hp.2).elim
  | _ =>
    rw [hst] at hm
    exact (hfind hm.1).elim

lemma Control.no_other (hC : Control pkts pcs status s) {i j : ι} (hnot : ¬(status h).Usable)
    (htag : ∀ k, (status h).tag = some k → k = i) (hji : j ≠ i) :
    (pcs j).concerns (pkts j) ≠ some h := by
  intro hcon
  rcases tag_or_usable (hC.agrees j) hcon with ht | hu
  · exact hji (htag j ht)
  · exact hnot hu

lemma agrees_ready {i j : ι} {p : Packet} {pc : Pc} {a : Nat} {n : UInt32}
    (hst : status h = .addressed i a n) (hji : j ≠ i) (hag : Agrees status j p pc)
    (hcon : pc.concerns p = some h) : Agrees (Function.update status h (.ready a n)) j p pc := by
  cases pc with
  | start => trivial
  | mapped a => trivial
  | rechecking => trivial
  | done => trivial
  | numbered b k =>
    obtain rfl := Option.some.inj hcon
    have := hst.symm.trans hag
    cases this
  | addressed k =>
    obtain rfl := Option.some.inj hcon
    obtain ⟨b, hb⟩ := hag
    have := hst.symm.trans hb
    cases this
    exact (hji rfl).elim
  | checked =>
    obtain rfl := Option.some.inj hcon
    simp [Agrees, Status.Usable]
  | freeChecked =>
    obtain rfl := Option.some.inj hcon
    simp [Agrees, Status.Usable]
  | sized m =>
    obtain rfl := Option.some.inj hcon
    rcases hag with ⟨hm, -⟩ | ⟨b, hb⟩
    · exact .inl ⟨hm, by simp [Status.Usable]⟩
    · have := hst.symm.trans hb
      cases this
  | located m b =>
    obtain rfl := Option.some.inj hcon
    have := hst.symm.trans hag.1
    cases this
  | freeSized m =>
    obtain rfl := Option.some.inj hcon
    obtain ⟨b, hb⟩ := hag
    have := hst.symm.trans hb
    cases this
  | freeLocated m b =>
    obtain rfl := Option.some.inj hcon
    have := hst.symm.trans hag
    cases this
  | unmapped =>
    obtain rfl := Option.some.inj hcon
    have := hst.symm.trans hag
    cases this
  | erasing =>
    obtain rfl := Option.some.inj hcon
    have := hst.symm.trans hag
    cases this

lemma Control.absent (hC : Control pkts pcs status s) (haddr : s.addrMap.find h = none)
    (hpages : s.hndlNPages.find h = none) (hnot : ∀ j a, pcs j ≠ .numbered a h) :
    status h = .absent := by
  have hm := hC.matching h
  have hp := hC.placed h
  rw [haddr, hpages] at hm
  cases hst : status h with
  | absent => rfl
  | given j a n =>
    rw [hst] at hp
    exact (hnot j a hp).elim
  | addressed j a n =>
    rw [hst] at hm
    cases hm.1
  | ready a n =>
    rw [hst] at hm
    cases hm.1
  | unmapped j =>
    rw [hst] at hm
    exact (hm.1 rfl).elim
  | erasing j =>
    rw [hst] at hm
    exact (hm.2 rfl).elim

/-- Looking up the number of pages gives 0 or the one of the region, and may insert 0. -/
lemma Control.lookup_pages (hC : Control pkts pcs status s) (hu : (status h).Usable) :
    ((s.hndlNPages.index 0 h = 0 ∧ (status h).Usable) ∨
        ∃ a, status h = .ready a (s.hndlNPages.index 0 h)) ∧
      ∀ k, (status k).Matches (s.addrMap.find k) ((s.hndlNPages.indexed 0 h).find k) := by
  have hm := hC.matching h
  cases hst : status h with
  | addressed j a n =>
    rw [hst] at hm
    have hzero : (s.hndlNPages.find h).getD 0 = 0 := by
      rcases hm.2 with hn | hn <;> simp [hn]
    refine ⟨.inl ⟨hzero, trivial⟩, fun k => ?_⟩
    by_cases hk : k = h
    · subst hk
      rw [hst, UnorderedMap.indexed, UnorderedMap.find_insert, if_pos rfl, hzero]
      exact ⟨hm.1, .inr rfl⟩
    · rw [UnorderedMap.indexed, UnorderedMap.find_insert, if_neg hk]
      exact hC.matching k
  | ready a n =>
    rw [hst] at hm
    rw [UnorderedMap.index_of_find_some _ _ hm.2, UnorderedMap.indexed_of_find_some _ _ _ hm.2]
    exact ⟨.inr ⟨a, rfl⟩, hC.matching⟩
  | _ =>
    rw [hst] at hu
    exact hu.elim

lemma Control.lookup_addr (hC : Control pkts pcs status s) (hu : (status h).Usable) :
    s.addrMap.indexed 0 h = s.addrMap ∧ ∀ a n, status h = .ready a n → s.addrMap.index 0 h = a := by
  have hm := hC.matching h
  cases hst : status h with
  | addressed j a n =>
    rw [hst] at hm
    exact ⟨UnorderedMap.indexed_of_find_some _ _ _ hm.1, fun _ _ h => by cases h⟩
  | ready a n =>
    rw [hst] at hm
    refine ⟨UnorderedMap.indexed_of_find_some _ _ _ hm.1, fun a' n' heq => ?_⟩
    obtain ⟨rfl, rfl⟩ : a = a' ∧ n = n' := by simpa using heq
    exact UnorderedMap.index_of_find_some _ _ hm.1
  | _ =>
    rw [hst] at hu
    exact hu.elim

end Lookup

end RemoteMemoryPool.Proofs
