import RemoteMemoryPool.Model.ServerThreads
import RemoteMemoryPool.Proofs.ServerSpec

/-!
# The control flow of a call of the server

Where a call of `rmp::Server::handle` stands between two of its operations, with the values it
holds in local variables, and the transitions its operations make. The programs of
`rmp_server.cpp` keep to this control flow whatever the operations answer.
-/

namespace RemoteMemoryPool.Proofs

open Interaction

/-- Where a call stands. -/
inductive Pc
  | start
  | mapped (addr : Nat)
  | numbered (addr : Nat) (h : Handle)
  | addressed (h : Handle)
  | checked
  | sized (npages : UInt32)
  | located (npages : UInt32) (addr : Nat)
  | rechecking
  | freeChecked
  | freeSized (npages : UInt32)
  | freeLocated (npages : UInt32) (addr : Nat)
  | unmapped
  | erasing
  | done

/-- The transitions of the call for `p`. -/
inductive Flow (p : Packet) : Pc → (op : ServerOp) → op.Res → Pc → Prop
  | mmapFailed : Flow p .start (.mmap (p.npages * p.size).toNat) none .done
  | mmapped (addr : Nat) : Flow p .start (.mmap (p.npages * p.size).toNat) (some addr) (.mapped addr)
  | newHandle (addr : Nat) (n : UInt32) :
      Flow p (.mapped addr) .getNewHandle n (.numbered addr (handleOfCount n))
  | setAddr (addr : Nat) (h : Handle) : Flow p (.numbered addr h) (.setAddrMap h addr) () (.addressed h)
  | setPages (h : Handle) : Flow p (.addressed h) (.setHndlNPages h p.npages) () .done
  | missing : Flow p .start (.containsKey p.hndl) false .done
  | found : Flow p .start (.containsKey p.hndl) true .checked
  | size (n : UInt32) : Flow p .checked (.getHndlNPages p.hndl) n (.sized n)
  | outside (n : UInt32) (addr : Nat) (h : n ≤ p.offset) :
      Flow p (.sized n) (.getAddrMap p.hndl) addr .done
  | locate (n : UInt32) (addr : Nat) (h : p.offset < n) :
      Flow p (.sized n) (.getAddrMap p.hndl) addr (.located n addr)
  | copyFrom (n : UInt32) (addr : Nat) (data : Page) :
      Flow p (.located n addr) (.memcpyFrom (Server.addrWithOffset addr p.size p.offset)) data .done
  | copyTo (n : UInt32) (addr : Nat) (data : Page) :
      Flow p (.located n addr) (.memcpyTo (Server.addrWithOffset addr p.size p.offset) data) () .done
  | foundFree : Flow p .start (.containsKey p.hndl) true .rechecking
  | gone : Flow p .rechecking (.containsKey p.hndl) false .done
  | recheck : Flow p .rechecking (.containsKey p.hndl) true .freeChecked
  | noPages : Flow p .freeChecked (.getHndlNPages p.hndl) (0 : UInt32) .done
  | sizeFree (n : UInt32) (h : n ≠ 0) : Flow p .freeChecked (.getHndlNPages p.hndl) n (.freeSized n)
  | locateFree (n : UInt32) (addr : Nat) :
      Flow p (.freeSized n) (.getAddrMap p.hndl) addr (.freeLocated n addr)
  | munmapFailed (n : UInt32) (addr : Nat) :
      Flow p (.freeLocated n addr) (.munmap addr (n * p.size).toNat) false .done
  | munmapped (n : UInt32) (addr : Nat) :
      Flow p (.freeLocated n addr) (.munmap addr (n * p.size).toNat) true .unmapped
  | unsetAddr : Flow p .unmapped (.unsetAddrMap p.hndl) () .erasing
  | unsetPages : Flow p .erasing (.unsetHndlNPages p.hndl) () .done

lemma follows_alloc (p : Packet) :
    (Server.alloc p.npages p.size).Follows (Flow p) .start (fun _ pc => pc = .done) := by
  intro r
  cases r with
  | none => exact ⟨.done, .mmapFailed, rfl⟩
  | some addr =>
    refine ⟨.mapped addr, .mmapped addr, fun n => ?_⟩
    refine ⟨.numbered addr (handleOfCount n), .newHandle addr n, fun _ => ?_⟩
    refine ⟨.addressed (handleOfCount n), .setAddr addr _, fun _ => ?_⟩
    exact ⟨.done, .setPages _, rfl⟩

lemma follows_read (p : Packet) :
    (Server.read p.hndl p).Follows (Flow p) .checked (fun _ pc => pc = .done) := by
  simp only [Server.read, Program.follows_bind, Program.follows_ite]
  refine fun n => ⟨.sized n, .size n, fun addr => ?_⟩
  by_cases h : n ≤ p.offset
  · exact ⟨.done, .outside n addr h, And.intro (fun _ => rfl) (fun hn => (hn h).elim)⟩
  · have hlt : p.offset < n := UInt32.not_le.mp h
    refine ⟨.located n addr, .locate n addr hlt, And.intro (fun hle => (h hle).elim) (fun _ data => ?_)⟩
    exact ⟨.done, .copyFrom n addr data, rfl⟩

lemma follows_write (p : Packet) :
    (Server.write p.hndl p).Follows (Flow p) .checked (fun _ pc => pc = .done) := by
  simp only [Server.write, Program.follows_bind, Program.follows_ite]
  refine fun n => ⟨.sized n, .size n, fun addr => ?_⟩
  by_cases h : n ≤ p.offset
  · exact ⟨.done, .outside n addr h, And.intro (fun _ => rfl) (fun hn => (hn h).elim)⟩
  · have hlt : p.offset < n := UInt32.not_le.mp h
    refine ⟨.located n addr, .locate n addr hlt, And.intro (fun hle => (h hle).elim) (fun _ _ => ?_)⟩
    exact ⟨.done, .copyTo n addr p.data, rfl⟩

lemma follows_free (p : Packet) :
    (Server.free p.hndl p.size).Follows (Flow p) .rechecking (fun _ pc => pc = .done) := by
  simp only [Server.free, Program.follows_bind, Program.follows_ite]
  intro found
  cases found with
  | false => exact ⟨.done, .gone, And.intro (fun h => by cases h) (fun _ => rfl)⟩
  | true =>
    refine ⟨.freeChecked, .recheck, And.intro (fun _ n => ?_) (fun h => (h rfl).elim)⟩
    by_cases hn : n = 0
    · subst hn
      exact ⟨.done, .noPages, And.intro (fun _ => rfl) (fun h => (h rfl).elim)⟩
    · refine ⟨.freeSized n, .sizeFree n hn, And.intro (fun h => (hn h).elim) (fun _ addr => ?_)⟩
      refine ⟨.freeLocated n addr, .locateFree n addr, fun unmapped => ?_⟩
      cases unmapped with
      | false => exact ⟨.done, .munmapFailed n addr, And.intro (fun h => by cases h) (fun _ => rfl)⟩
      | true =>
        refine ⟨.unmapped, .munmapped n addr, And.intro (fun _ _ => ?_) (fun h => (h rfl).elim)⟩
        exact ⟨.erasing, .unsetAddr, fun _ => ⟨.done, .unsetPages, rfl⟩⟩

lemma follows_check {p : Packet} {pc : Pc} {x y : ServerM Packet} {post : Packet → Pc → Prop}
    (hfound : Flow p .start (.containsKey p.hndl) true pc) (hx : x.Follows (Flow p) pc post)
    (hy : y.Follows (Flow p) .done post) :
    (Server.containsKey p.hndl >>= fun b => if b then x else y).Follows (Flow p) .start post := by
  simp only [Program.follows_bind, Program.follows_ite]
  intro found
  cases found with
  | false => exact ⟨.done, .missing, And.intro (fun h => by cases h) (fun _ => hy)⟩
  | true => exact ⟨pc, hfound, And.intro (fun _ => hx) (fun h => (h rfl).elim)⟩

/-- Every call keeps to the control flow; one with an unknown action has nothing to do. -/
lemma follows_handle (p : Packet) :
    (Server.handle p).Follows (Flow p) .start (fun _ pc => pc = .done ∨ pc = .start) := by
  have hread : (Server.handleRead p).Follows (Flow p) .start (fun _ pc => pc = .done ∨ pc = .start) := by
    refine follows_check .found ?_ (.inl rfl)
    rw [Program.follows_bind]
    apply (follows_read p).mono
    rintro ⟨suc, packet⟩ pc rfl
    simp
  have hwrite : (Server.handleWrite p).Follows (Flow p) .start (fun _ pc => pc = .done ∨ pc = .start) := by
    refine follows_check .found ?_ (.inl rfl)
    rw [Program.follows_bind]
    apply (follows_write p).mono
    rintro suc pc rfl
    simp
  have hfree : (Server.handleFree p).Follows (Flow p) .start (fun _ pc => pc = .done ∨ pc = .start) := by
    refine follows_check .foundFree ?_ (.inl rfl)
    rw [Program.follows_bind]
    apply (follows_free p).mono
    rintro suc pc rfl
    simp
  have halloc : (Server.handleAlloc p).Follows (Flow p) .start (fun _ pc => pc = .done ∨ pc = .start) := by
    simp only [Server.handleAlloc, Program.follows_bind]
    apply (follows_alloc p).mono
    rintro hndl pc rfl
    simp
  simp only [Server.handle, Program.follows_ite]
  exact ⟨fun _ => halloc, fun _ => ⟨fun _ => hread, fun _ => ⟨fun _ => hwrite, fun _ =>
    ⟨fun _ => hfree, fun _ => .inr rfl⟩⟩⟩⟩

end RemoteMemoryPool.Proofs
