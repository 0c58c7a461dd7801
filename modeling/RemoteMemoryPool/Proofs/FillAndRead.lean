import RemoteMemoryPool.Proofs.Unmodified
import Mathlib.Data.List.Induction

/-!
# Filling an array and reading it back

The programs of the repository, `foo` of `malloc_test.c` and `main` of `client.cpp`, store an array
of whole pages in order, from the start of its region, and then load it. `fill_and_read` says that
such a program always gets to its end and reads what it has stored, in whatever order it reads, and
that it can then do the same with the next array. `main` of `client.cpp` leaves the last page of a
region alone.
-/

namespace RemoteMemoryPool.Proofs

open Interaction Transition Paging

/-- The first loop: `n` bytes of a region are stored in order. -/
def fillLoop (r : Region) (env : Nat → Env) (data : Nat → UInt8) (n : Nat) : List ProgramEvent :=
  (List.range n).map (fun j => .store (env j) r (r.startAddr + j) (data j))

/-- The second loop, with the bytes at the given positions loaded. -/
def readLoop (r : Region) (data : Nat → UInt8) (reads : List (Env × Nat)) : List ProgramEvent :=
  reads.map (fun x => .load x.1 r (r.startAddr + x.2) (data x.2))

/-- The region an event accesses, by its start address. -/
def ProgramEvent.touched : ProgramEvent → Option Nat
  | .load _ r _ _ => some r.startAddr
  | .store _ r _ _ => some r.startAddr
  | _ => none

/-- A run of an unmodified program that has kept to the discipline. -/
structure Proper (mem : Nat → UInt8) (tr : List (Preloaded × ProgramEvent)) (c : Preloaded) :
    Prop where
  run : Run Preloaded.Step (Preloaded.start mem) tr c
  small : ∀ e ∈ clientEvents tr, e.Small
  disciplined : Disciplined (clientEvents tr)

section Loops

variable {mem : Nat → UInt8} {tr : List (Preloaded × ProgramEvent)} {c c' : Preloaded} {r : Region}

lemma Proper.sound (h : Proper mem tr c) : Sound mem c (clientEvents tr) :=
  (sound_run h.run h.small h.disciplined).1

lemma Proper.wellFormed (h : Proper mem tr c) (hr : r ∈ c.regions) : r.WellFormed := by
  obtain ⟨σ, st, p, hb, ht, -⟩ := h.sound
  apply ht.linked.wf
  rw [hb.believes.1]
  exact hr

lemma Proper.access (h : Proper mem tr c) {e : ProgramEvent} {e' : Event}
    (he : e.onClient = some e') (hsmall : e'.Small) (hstep : Preloaded.Step c e c')
    (hobey : Obeys (residencies (clientEvents tr)) e') : Proper mem (tr ++ [(c, e)]) c' where
  run := h.run.snoc hstep
  small := by
    rw [clientEvents_snoc he]
    exact forall_mem_snoc.mpr ⟨h.small, hsmall⟩
  disciplined := by
    rw [clientEvents_snoc he]
    exact disciplined_concat.mpr ⟨h.disciplined, hobey⟩

lemma Proper.store (h : Proper mem tr c) (hr : r ∈ c.regions) {addr : Nat} (hin : r.Contains addr)
    (env : Env) (value : UInt8)
    (hobey : Obeys (residencies (clientEvents tr)) (.store env r addr value)) :
    ∃ sys, Preloaded.Step c (.store env r addr value)
        { c with sys := sys, memory := Function.update c.memory addr value } ∧
      Proper mem (tr ++ [(c, .store env r addr value)])
        { c with sys := sys, memory := Function.update c.memory addr value } := by
  obtain ⟨sys, hsys⟩ := Option.isSome_iff_exists.mp (h.sound.completes hr hin env value).2
  have hstep := Preloaded.Step.store hr hin hsys
  exact ⟨sys, hstep, h.access rfl trivial hstep hobey⟩

lemma Proper.load (h : Proper mem tr c) (hr : r ∈ c.regions) {addr : Nat} (hin : r.Contains addr)
    (env : Env)
    (hobey : ∀ value, Obeys (residencies (clientEvents tr)) (.load env r addr value)) :
    ∃ sys, Preloaded.Step c (.load env r addr (c.memory addr)) { c with sys := sys } ∧
      Proper mem (tr ++ [(c, .load env r addr (c.memory addr))]) { c with sys := sys } := by
  obtain ⟨⟨value, sys⟩, hsys⟩ := Option.isSome_iff_exists.mp (h.sound.completes hr hin env 0).1
  have hstep := Preloaded.Step.load hr hin hsys
  have hproper : Proper mem (tr ++ [(c, .load env r addr value)]) { c with sys := sys } :=
    h.access rfl trivial hstep (hobey value)
  have hvalue := (h.sound.step hstep rfl trivial (hobey value)).2 env r addr value rfl
  rw [hvalue] at hstep hproper
  exact ⟨sys, hstep, hproper⟩

lemma residencies_untouched {a : Nat} (h : ∀ x ∈ tr, x.2.touched ≠ some a) :
    residencies (clientEvents tr) a = none := by
  induction tr using List.reverseRecOn with
  | nil => rfl
  | append_singleton tr x ih =>
    rw [forall_mem_snoc] at h
    obtain ⟨c, e⟩ := x
    have hrest := ih h.1
    cases e with
    | remote env size region =>
      rw [clientEvents_snoc rfl, residencies, List.foldl_concat]
      exact hrest
    | unserved env size => rwa [clientEvents_hidden rfl]
    | free env ptr => rwa [clientEvents_hidden rfl]
    | load env r addr value =>
      have hne : a ≠ r.startAddr := fun he => h.2 (congrArg some he.symm)
      rw [clientEvents_snoc rfl, residencies, List.foldl_concat]
      exact (Residency.track_of_ne _ hne).trans hrest
    | store env r addr value =>
      have hne : a ≠ r.startAddr := fun he => h.2 (congrArg some he.symm)
      rw [clientEvents_snoc rfl, residencies, List.foldl_concat]
      exact (Residency.track_of_ne _ hne).trans hrest

/-- The run after `n` turns of the first loop. -/
structure Filled (mem : Nat → UInt8) (rs : List Region) (r : Region) (data : Nat → UInt8)
    (n : Nat) (tr : List (Preloaded × ProgramEvent)) (c : Preloaded) : Prop where
  proper : Proper mem tr c
  registered : c.regions = rs
  memory : ∀ j, j < n → c.memory (r.startAddr + j) = data j
  residency : residencies (clientEvents tr) r.startAddr = filling n

lemma Filled.store {data : Nat → UInt8} {rs : List Region} {n : Nat}
    (h : Filled mem rs r data n tr c) (hr : r ∈ rs) (hn : n < 4096 * r.npages.toNat)
    (env : Env) :
    ∃ c', Preloaded.Step c (.store env r (r.startAddr + n) (data n)) c' ∧
      Filled mem rs r data (n + 1)
        (tr ++ [(c, .store env r (r.startAddr + n) (data n))]) c' := by
  have hr' : r ∈ c.regions := h.registered.symm ▸ hr
  have hin : r.Contains (r.startAddr + n) := by
    constructor <;> omega
  have hobey : Obeys (residencies (clientEvents tr)) (.store env r (r.startAddr + n) (data n)) :=
    fun t ht => filling_allows (h.residency ▸ ht) (data n)
  obtain ⟨sys, hstep, hproper⟩ := h.proper.store hr' hin env (data n) hobey
  refine ⟨_, hstep, hproper, h.registered, update_filled h.memory, ?_⟩
  rw [clientEvents_snoc rfl, residencies_concat]
  exact filling_tracked (h.proper.wellFormed hr') h.residency (data n)

/-- The first loop gets to its end. -/
lemma Proper.fill (h : Proper mem tr c) (hr : r ∈ c.regions)
    (hnew : residencies (clientEvents tr) r.startAddr = none) (env : Nat → Env)
    (data : Nat → UInt8) {n : Nat} (hn : n ≤ 4096 * r.npages.toNat) :
    ∃ tr' c', Run Preloaded.Step c tr' c' ∧ tr'.map Prod.snd = fillLoop r env data n ∧
      Filled mem c.regions r data n (tr ++ tr') c' :=
  Run.loop (I := Filled mem c.regions r data)
    (fun j _ _ hj hI => hI.store hr (by omega) (env j)) ⟨h, rfl, by simp, hnew⟩

lemma Proper.read (h : Proper mem tr c) (hr : r ∈ c.regions)
    (hcomplete : ∀ t, residencies (clientEvents tr) r.startAddr = some t → t.Complete)
    {data : Nat → UInt8} {reads : List (Env × Nat)}
    (hreads : ∀ x ∈ reads, x.2 < 4096 * r.npages.toNat)
    (hdata : ∀ x ∈ reads, c.memory (r.startAddr + x.2) = data x.2) :
    ∃ tr' c', Run Preloaded.Step c tr' c' ∧ tr'.map Prod.snd = readLoop r data reads ∧
      Proper mem (tr ++ tr') c' := by
  induction reads generalizing tr c with
  | nil => exact ⟨[], c, Run.nil, rfl, by simpa using h⟩
  | cons x reads ih =>
    obtain ⟨env, j⟩ := x
    rw [List.forall_mem_cons] at hreads hdata
    have hin : r.Contains (r.startAddr + j) := by
      constructor <;> omega
    obtain ⟨sys, hstep, hproper⟩ := h.load hr hin env
      (fun value t ht => complete_allows (hcomplete t ht) _)
    rw [hdata.1] at hstep hproper
    have hcomplete' : ∀ t, residencies (clientEvents (tr ++
        [(c, .load env r (r.startAddr + j) (data j))])) r.startAddr = some t → t.Complete := by
      rw [clientEvents_snoc rfl, residencies_concat]
      exact complete_tracked hcomplete _
    obtain ⟨tr', c', hrun, hev, hproper'⟩ := ih hproper hr hcomplete' hreads.2 hdata.2
    refine ⟨_, c', Run.cons hstep hrun, ?_, ?_⟩
    · rw [List.map_cons, hev]
      rfl
    · rwa [List.append_assoc] at hproper'

end Loops

/-- In every state that an unmodified program under the preload library reaches by a disciplined
run, for every region it has been given and has not accessed: the program that stores some of the
pages of the region in order, from its start, and then loads bytes of them in any order, any number
of times, gets to its end, every load returns the byte that was stored, and the run is still
disciplined. -/
theorem fill_and_read {mem : Nat → UInt8} {tr : List (Preloaded × ProgramEvent)} {c : Preloaded}
    (h : Proper mem tr c) {r : Region} (hr : r ∈ c.regions)
    (hnew : ∀ x ∈ tr, x.2.touched ≠ some r.startAddr) {pages : Nat}
    (hpages : pages ≤ r.npages.toNat) (env : Nat → Env) (data : Nat → UInt8)
    {reads : List (Env × Nat)}
    (hreads : ∀ x ∈ reads, x.2 < 4096 * pages) :
    ∃ tr' c', Run Preloaded.Step c tr' c' ∧
      tr'.map Prod.snd = fillLoop r env data (4096 * pages) ++ readLoop r data reads ∧
      Proper mem (tr ++ tr') c' := by
  have hsize : 4096 * pages ≤ 4096 * r.npages.toNat := Nat.mul_le_mul_left 4096 hpages
  obtain ⟨tr₁, c₁, hrun₁, hev₁, hproper₁, hregions, hmem, hres⟩ :=
    h.fill hr (residencies_untouched hnew) env data hsize
  have hcomplete : ∀ t, residencies (clientEvents (tr ++ tr₁)) r.startAddr = some t → t.Complete :=
    fun t ht => filling_complete (Nat.mul_mod_right 4096 _) (hres.symm.trans ht)
  obtain ⟨tr₂, c₂, hrun₂, hev₂, hproper₂⟩ := hproper₁.read (hregions ▸ hr) hcomplete
    (fun x hx => (hreads x hx).trans_le hsize) (fun x hx => hmem x.2 (hreads x hx))
  refine ⟨tr₁ ++ tr₂, c₂, hrun₁.append hrun₂, ?_, ?_⟩
  · rw [List.map_append, hev₁, hev₂]
  · rwa [← List.append_assoc]

/-- A program fills the two pages of its first region and reads some bytes. -/
theorem first_array_read_back :
    ∃ tr c, Run Preloaded.Step (Preloaded.start fun _ => 0) tr c ∧
      tr.map Prod.snd = [.unserved refusingEnv 5000, .remote firstEnv 5000 firstRegion] ++
        (fillLoop firstRegion (fun _ => firstEnv) UInt8.ofNat 8192 ++
          readLoop firstRegion UInt8.ofNat
            [(firstEnv, 8191), (firstEnv, 0), (firstEnv, 8191)]) := by
  have hproper : Proper (fun _ => 0) _ _ :=
    ⟨first_remote_run, first_remote_small, first_remote_disciplined⟩
  have hreads : ∀ x ∈ [(firstEnv, 8191), (firstEnv, 0), (firstEnv, 8191)], x.2 < 4096 * 2 := by
    decide
  have hpages : 2 ≤ firstRegion.npages.toNat := by decide
  obtain ⟨tr, c, hrun, hev, -⟩ := fill_and_read hproper (List.mem_singleton.mpr rfl) (by decide)
    hpages (fun _ => firstEnv) UInt8.ofNat hreads
  refine ⟨_, c, first_remote_run.append hrun, ?_⟩
  rw [List.map_append, hev]
  rfl

end RemoteMemoryPool.Proofs
