import RemoteMemoryPool.Lib.Snapshot
import RemoteMemoryPool.Proofs.PageOps
import Mathlib.Data.List.Induction

/-!
# Writing back a page that others store to

`invalidate_prev_resolved_page` copies the resident page into a request, sends it, waits for the
reply and then drops the page. The page stays writable meanwhile. `write_back_captures_iff` says
which interleavings with stores of other threads lose a store: the server gets the page as it was
when it was copied.
-/

namespace RemoteMemoryPool.Proofs

open Interaction Transition

/-- A resident page as a cell of the system; a store writes one byte. -/
def residentCell (p : Nat) : Cell System Page (Fin 4096 × UInt8) where
  get s := s.resident p
  put d s := setPage p d s
  apply w d := Function.update d w.1 w.2
  get_put d s := by
    simp only [setPage, Function.update_self]
  put_put d e s := by
    simp only [setPage, Function.update_idem]

def copiesPage : ClientOp → Bool
  | .loadPage _ => true
  | _ => false

/-- The handler thread in `invalidate_prev_resolved_page`, and the stores of other threads to the
page that is being written back. -/
abbrev WriteBack.Step (env : Env) (p : Nat) :
    ClientM Unit × System → Contention ClientOp (Fin 4096 × UInt8) → ClientM Unit × System → Prop :=
  Contended (ClientOp.exec env) (residentCell p)

/-- The page `q` of a registered region is resident since a write fault, and the server holds the
region. -/
structure WriteResident (s : System) (r : Region) (q : Slot) : Prop where
  ready : Ready s
  attached : Attached s r
  wf : r.WellFormed
  slotted : Slotted s r (some q)
  byWrite : q.byWrite = true
  live : ∃ a, Live s.host.server r.hndl a r.npages

lemma Linked.writeResident {s : System} {allocated regions : List Region} {r : Region} {q : Slot}
    (h : Linked s allocated regions) (hr : r ∈ regions) (hq : Slotted s r (some q))
    (hw : q.byWrite = true) : WriteResident s r q := by
  obtain ⟨hwf, ha, -, -, hl⟩ := h.obtain hr
  exact ⟨h.ready, ha, hwf, hq, hw, hl⟩

section Operations

variable {env : Env} {p : Nat}

lemma silent_get (s : System) :
    Silent (ClientOp.exec env) (residentCell p) copiesPage Client.get s s.globals s :=
  .perform rfl fun _ => rfl

lemma silent_mapAt {s : System} {K V : Type} {m : Globals → UnorderedMap K V} {k : K} {v : V}
    (h : (m s.globals).find k = some v) :
    Silent (ClientOp.exec env) (residentCell p) copiesPage (Client.mapAt m k) s v s := by
  refine .op rfl (fun _ => rfl) ?_
  dsimp only [Program.bind]
  rw [h]
  exact .pure v s

lemma silent_enterResolver (s : System) (call : ResolverCall) :
    Silent (ClientOp.exec env) (residentCell p) copiesPage (Client.enterResolver call) s ()
      { s with resolving := some call } :=
  .perform rfl fun _ => rfl

lemma silent_packetObject (s : System) :
    Silent (ClientOp.exec env) (residentCell p) copiesPage Client.packetObject s
      (env.packetObject s.log.length) s :=
  .perform rfl fun _ => rfl

lemma silent_send (s : System) (packet : Packet) :
    Silent (ClientOp.exec env) (residentCell p) copiesPage (Client.send packet) s ()
      { s with requests := s.requests ++ [(s.resolving, packet)], resolving := none } :=
  .perform rfl fun _ => rfl

lemma silent_recv {s : System} {call : Option ResolverCall} {request : Packet}
    (hr : s.requests = [(call, request)]) :
    Silent (ClientOp.exec env) (residentCell p) copiesPage Client.recv s
      (s.host.handle env.serverOs request).1
      { s with
        requests := []
        log := s.log ++ [⟨call, request, (s.host.handle env.serverOs request).1⟩]
        host := (s.host.handle env.serverOs request).2 } := by
  refine .perform rfl fun d => ?_
  simp only [ClientOp.exec, System.serve, residentCell, setPage, hr]

end Operations

section Snapshot

variable {s : System} {r : Region} {q : Slot}

/-- The state once the request that carries `d` has been answered. -/
def writtenBack (env : Env) (r : Region) (i : Nat) (d : Page) (s : System) : System :=
  exchange env (some ⟨r.startAddr, r.startAddr + 4096 * i, 1⟩) (writeRequest env s r.hndl i d) s

lemma serverPage_writtenBack (env : Env) {a : Nat} (hl : Live s.host.server r.hndl a r.npages)
    {i : Nat} (hi : i < r.npages.toNat) (d : Page) :
    serverPage (writtenBack env r i d s) r i = d :=
  serverPage_beforeDiscard env (t := ⟨i, true, d⟩) hl hi

/-- `invalidate_prev_resolved_page` hands the server the page it copies. -/
lemma WriteResident.snapshot (h : WriteResident s r q) (env : Env) :
    Snapshot (ClientOp.exec env) (residentCell (r.page q.page)) copiesPage ()
      (fun d t => serverPage t r q.page = d)
      (Uffdman.invalidatePrevResolvedPage Client.rmpPagefaultResovler r.uffd) s := by
  obtain ⟨a, hl⟩ := h.live
  have hq := h.slotted
  have hin : q.page < r.npages.toNat := hq.inside q rfl
  have hc : s.globals.uffdPrevResolvedAddr.Contains r.uffd ∧
      s.globals.uffdPrevResolvedOp.Contains r.uffd ∧ s.globals.uffdStartAddrMap.Contains r.uffd := by
    simp [UnorderedMap.Contains, hq.addr, hq.op, h.attached.start]
  have hop : s.globals.uffdPrevResolvedOp.find r.uffd = some 1 := by
    simpa [opOf, h.byWrite] using hq.op
  have hoff : Client.pageOffset r.startAddr (r.startAddr + 4096 * q.page) = q.page := by
    rw [pageOffset_eq h.wf (contains_start hin), index_start]
  unfold Uffdman.invalidatePrevResolvedPage
  refine Leads.bind (silent_get s) ?_
  rw [if_pos hc]
  unfold Uffdman.invalidate
  refine Leads.bind (silent_mapAt hq.addr) (Leads.bind (silent_mapAt hop)
    (Leads.bind (silent_mapAt h.attached.start) ?_))
  unfold Uffdman.resolveWrite
  rw [if_pos Nat.one_ne_zero]
  unfold Client.rmpPagefaultResovler Client.rmpWritePage
  rw [Program.bind_assoc]
  refine Leads.bind (silent_enterResolver s _) ?_
  rw [Program.bind_assoc]
  refine Leads.bind (silent_mapAt (by exact h.attached.hndl)) ?_
  rw [if_pos Nat.one_ne_zero, hoff, Program.bind_assoc]
  refine Leads.bind (silent_get _) ?_
  rw [if_pos h.ready.connected, Program.bind_assoc]
  refine Leads.bind (silent_packetObject _) ?_
  rw [Program.bind_assoc]
  refine .here ⟨.loadPage (.mem (r.startAddr + 4096 * q.page)), _, fun d => d, rfl, rfl, ?_, ?_⟩
  · -- the page that is copied is the cell
    intro d
    simp only [ClientOp.exec, System.bufPage, start_aligned h.wf, page_start h.wf, if_true,
      residentCell, setPage, Function.update_self, Option.map_some]
  · intro d
    change Leads _ _ _ _ ((Client.send _ >>= fun _ => Client.recv >>= fun _ => pure ()) >>= _) _
    rw [Program.bind_assoc]
    refine Leads.bind (silent_send _ _) ?_
    rw [Program.bind_assoc]
    refine Leads.bind (silent_recv (by rw [h.ready.idle]; rfl)) ?_
    refine .here ⟨.madvise (pgRoundDown (r.startAddr + 4096 * q.page)) 4096, _, (),
      { writtenBack env r q.page d s with
        resident := Function.update s.resident (r.page q.page) none }, rfl, rfl, ?_, rfl, ?_, ?_⟩
    · -- nothing is left of what the page holds when it is dropped
      intro e
      rw [madvise_eq h.wf]
      simp only [residentCell, setPage, Function.update_idem, writtenBack, exchange, writeRequest,
        h.ready.idle]
    · exact Function.update_self _ _ _
    · exact serverPage_writtenBack env hl hin d

end Snapshot

def lastStore (ws : List (Fin 4096 × UInt8)) (b : Fin 4096) : Option UInt8 :=
  ws.foldl (fun latest w => if w.1 = b then some w.2 else latest) none

lemma lastStore_snoc (ws : List (Fin 4096 × UInt8)) (w : Fin 4096 × UInt8) (b : Fin 4096) :
    lastStore (ws ++ [w]) b = if w.1 = b then some w.2 else lastStore ws b := by
  unfold lastStore
  rw [List.foldl_append]
  rfl

lemma lastStore_append (ws ws' : List (Fin 4096 × UInt8)) (b : Fin 4096) :
    lastStore (ws ++ ws') b = (lastStore ws' b).or (lastStore ws b) := by
  induction ws' using List.reverseRecOn with
  | nil => simp [lastStore]
  | append_singleton ws' w ih =>
    rw [← List.append_assoc, lastStore_snoc, lastStore_snoc, ih]
    split <;> rfl

lemma residentCell_value (p : Nat) (d : Page) (ws : List (Fin 4096 × UInt8)) (b : Fin 4096) :
    (residentCell p).value d ws b = (lastStore ws b).getD (d b) := by
  induction ws using List.reverseRecOn with
  | nil => rfl
  | append_singleton ws w ih =>
    rw [Cell.value_append, lastStore_snoc]
    change Function.update ((residentCell p).value d ws) w.1 w.2 b = _
    by_cases hb : w.1 = b
    · simp [hb]
    · rw [Function.update_of_ne (Ne.symm hb), ih, if_neg hb]

section Theorem

variable {s t : System} {r : Region} {q : Slot} {env : Env}
  {tr : List ((ClientM Unit × System) × Contention ClientOp (Fin 4096 × UInt8))}

/-- Afterwards the server holds, of every byte, the latest store executed before the page was
dropped, or what the byte held at the beginning if there was none. -/
def Captures (r : Region) (q : Slot)
    (tr : List ((ClientM Unit × System) × Contention ClientOp (Fin 4096 × UInt8))) (t : System) :
    Prop :=
  ∀ b, serverPage t r q.page b = (lastStore (writes tr) b).getD (q.contents b)

lemma WriteResident.put_contents (h : WriteResident s r q) :
    (residentCell (r.page q.page)).put q.contents s = s := by
  have hres : s.resident (r.page q.page) = some q.contents := by
    simpa using h.slotted.resident q.page (h.slotted.inside q rfl)
  change { s with resident := Function.update s.resident (r.page q.page) (some q.contents) } = s
  rw [← hres, Function.update_eq_self]

lemma WriteResident.serverPage_eq (h : WriteResident s r q)
    (hr : Run (WriteBack.Step env (r.page q.page))
      (Uffdman.invalidatePrevResolvedPage Client.rmpPagefaultResovler r.uffd, s) tr (.pure (), t))
    (b : Fin 4096) :
    serverPage t r q.page b = (lastStore (writesBefore copiesPage tr) b).getD (q.contents b) := by
  rw [← h.put_contents] at hr
  have hout := (h.snapshot env).outcome hr
  rw [hout, residentCell_value]

/-- For every interleaving of the write-back with stores to its page: no store is lost if and only
if of every byte the last store executed after the page was copied, if there is one, stores the
value the byte had when the page was copied. -/
theorem write_back_captures_iff (h : WriteResident s r q)
    (hr : Run (WriteBack.Step env (r.page q.page))
      (Uffdman.invalidatePrevResolvedPage Client.rmpPagefaultResovler r.uffd, s) tr (.pure (), t)) :
    Captures r q tr t ↔
      ∀ b v, lastStore (writesAfter copiesPage tr) b = some v →
        v = (lastStore (writesBefore copiesPage tr) b).getD (q.contents b) := by
  apply forall_congr'
  intro b
  rw [h.serverPage_eq hr, ← writesBefore_append_writesAfter copiesPage tr, lastStore_append]
  cases lastStore (writesAfter copiesPage tr) b with
  | none => simp
  | some v => simp [eq_comm]

end Theorem

lemma first_writeResident : ∃ s q, WriteResident s firstRegion q := by
  have hL := run_linked first_run
  have hr : firstRegion ∈ [firstRegion] := List.mem_singleton.mpr rfl
  have hin := firstRegion_contains.1
  obtain ⟨hw, ha, ⟨q, hq⟩, ⟨d, hd⟩, a, hl⟩ := hL.obtain hr
  exact ⟨_, _, (hL.resolved firstEnv hr hin hq true).writeResident hr
    (slotted_resolved firstEnv hl hin hd hq true) rfl⟩

/-- A write-back during which a byte is stored to before the copy, and stored to again after it with
the same value. -/
theorem write_back_captures_first_store :
    ∃ s q tr t, WriteResident s firstRegion q ∧
      Run (WriteBack.Step firstEnv (firstRegion.page q.page))
        (Uffdman.invalidatePrevResolvedPage Client.rmpPagefaultResovler firstRegion.uffd, s) tr
        (.pure (), t) ∧
      writesBefore copiesPage tr = [(0, q.contents 0 + 1)] ∧
      Captures firstRegion q tr t := by
  obtain ⟨s, q, h⟩ := first_writeResident
  obtain ⟨tr, t, hr, hbefore, hafter⟩ := (h.snapshot firstEnv).window q.contents
    [(0, q.contents 0 + 1)] [(0, q.contents 0 + 1)]
  rw [h.put_contents] at hr
  refine ⟨s, q, tr, t, h, hr, hbefore, (write_back_captures_iff h hr).mpr ?_⟩
  intro b v hv
  rw [hafter] at hv
  rw [hbefore, hv, Option.getD_some]

/-- A byte stored to after the page has been copied is lost. -/
theorem write_back_loses_store :
    ∃ s q tr t, WriteResident s firstRegion q ∧
      Run (WriteBack.Step firstEnv (firstRegion.page q.page))
        (Uffdman.invalidatePrevResolvedPage Client.rmpPagefaultResovler firstRegion.uffd, s) tr
        (.pure (), t) ∧
      ¬Captures firstRegion q tr t := by
  obtain ⟨s, q, h⟩ := first_writeResident
  obtain ⟨tr, t, hr, hbefore, hafter⟩ :=
    (h.snapshot firstEnv).window q.contents [] [(0, q.contents 0 + 1)]
  rw [h.put_contents] at hr
  refine ⟨s, q, tr, t, h, hr, ?_⟩
  intro hcap
  have hbyte := hcap 0
  rw [h.serverPage_eq hr, ← writesBefore_append_writesAfter copiesPage tr, hbefore, hafter] at hbyte
  simp [lastStore] at hbyte

end RemoteMemoryPool.Proofs
