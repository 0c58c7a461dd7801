import RemoteMemoryPool.Proofs.Progress
import RemoteMemoryPool.Proofs.Session
import RemoteMemoryPool.Proofs.Transparency
import RemoteMemoryPool.Proofs.Wire

/-!
# The socket of a client process

The model of a client and its server passes packets. Here it is tied to the bytes: whatever an
unmodified program does, the requests of its process are values of the C type, each of them has
been answered between two acts, and the server is in the state `connection_handler` leaves it in
when the bytes of the requests arrive.
-/

namespace RemoteMemoryPool.Proofs

open Interaction Transition

def LongHandles (g : Globals) : Prop := ∀ k h, g.addrHndlMap.find k = some h → IsLong h

/-- Operations that send and record values of the C type only. -/
def SendsLong : ClientOp → Prop
  | .send p => IsLong p.hndl
  | .modify f => ∀ g, LongHandles g → LongHandles (f g)
  | _ => True

/-- Answers that are values of the C type. -/
def HearsLong : (op : ClientOp) → op.Res → Prop
  | .get, g => LongHandles g
  | .packetObject, p => IsLong p.hndl
  | .recv, p => IsLong p.hndl
  | _, _ => True

/-- The program stays within the C type. -/
abbrev Typed {α : Type} (x : ClientM α) (post : α → Prop) : Prop :=
  x.Abides SendsLong HearsLong post

lemma typed_terminate {α : Type} (post : α → Prop) : Typed (Client.terminate : ClientM α) post :=
  ⟨trivial, fun r _ => r.elim⟩

lemma typed_mapAt {K V : Type} {m : Globals → UnorderedMap K V} (k : K) {post : V → Prop}
    (h : ∀ g, LongHandles g → ∀ v, (m g).find k = some v → post v) :
    Typed (Client.mapAt m k) post := by
  simp only [Typed, Client.mapAt, Client.get, ClientOp.call, Program.abides_bind,
    Program.abides_perform]
  refine ⟨trivial, ?_⟩
  intro g hg
  split
  · exact h g hg _ ‹_›
  · exact typed_terminate post

lemma typed_rmpWritePage {hd : Handle} (hh : IsLong hd) (offset : Nat) (page : Buf) :
    Typed (Client.rmpWritePage hd offset page) (fun _ => True) := by
  simp [Typed, Client.rmpWritePage, Client.get, Client.packetObject, Client.loadPage, Client.send,
    Client.recv, ClientOp.call, SendsLong, HearsLong, hh]

lemma typed_rmpReadPage {hd : Handle} (hh : IsLong hd) (offset : Nat) (page : Buf) :
    Typed (Client.rmpReadPage hd offset page) (fun _ => True) := by
  simp [Typed, Client.rmpReadPage, Client.get, Client.packetObject, Client.storePage, Client.send,
    Client.recv, ClientOp.call, SendsLong, HearsLong, hh]

lemma typed_rmpPagefaultResovler (startAddr faultingAddr isWrite : Nat) (page : Buf) :
    Typed (Client.rmpPagefaultResovler startAddr faultingAddr isWrite page) (fun _ => True) := by
  simp only [Typed, Client.rmpPagefaultResovler, Client.enterResolver, ClientOp.call,
    Program.abides_bind, Program.abides_perform]
  refine ⟨trivial, fun _ _ => ?_⟩
  apply typed_mapAt
  intro g hg hndl hfind
  have hh := hg startAddr hndl hfind
  rw [Program.abides_ite]
  exact ⟨fun _ => typed_rmpWritePage hh _ page, fun _ => typed_rmpReadPage hh _ page⟩

lemma typed_registerRegion (addr nPages : Nat) :
    Typed (Uffdman.registerRegion addr nPages) (fun _ => True) := by
  simp [Typed, Uffdman.registerRegion, Client.userfaultfd, Client.uffdioApi, Client.uffdioRegister,
    Client.pthreadCreate, Client.modify, ClientOp.call, SendsLong, LongHandles]

lemma LongHandles.insert {g : Globals} (hg : LongHandles g) (newAddr : Nat) {hndl : Handle}
    (hh : IsLong hndl) :
    LongHandles { g with addrHndlMap := g.addrHndlMap.insert newAddr hndl } := by
  intro k h hfind
  rw [UnorderedMap.find_insert] at hfind
  by_cases hk : k = newAddr
  · rw [if_pos hk] at hfind
    obtain rfl := Option.some.inj hfind
    -- an entry that exists is kept
    cases hold : g.addrHndlMap.find newAddr with
    | none => exact hh
    | some old => exact hg newAddr old hold
  · rw [if_neg hk] at hfind
    exact hg k h hfind

lemma typed_rmpAlloc (npages : UInt32) : Typed (Client.rmpAlloc npages) (fun _ => True) := by
  simp only [Typed, Client.rmpAlloc, Client.mmap, ClientOp.call, Program.abides_bind,
    Program.abides_perform]
  refine ⟨trivial, ?_⟩
  intro r _
  cases r with
  | none => trivial
  | some newAddr =>
    simp only [Client.get, Client.packetObject, Client.send, Client.recv, Client.modify,
      ClientOp.call, Program.abides_bind, Program.abides_perform, Program.abides_ite,
      Program.abides_pure]
    refine ⟨trivial, fun g _ => ⟨fun _ => ⟨trivial, fun sendPkt hsend => ?_⟩, fun _ => trivial⟩⟩
    refine ⟨hsend, fun _ _ => ⟨trivial, fun returnPkt hreturn => ?_⟩⟩
    apply (typed_registerRegion newAddr npages.toNat).mono
    intro _ _
    exact ⟨fun g hg => hg.insert newAddr hreturn, fun _ _ => ⟨fun g hg => hg, fun _ _ => trivial⟩⟩

lemma typed_invalidatePrevResolvedPage (uffd : Int) :
    Typed (Uffdman.invalidatePrevResolvedPage Client.rmpPagefaultResovler uffd)
      (fun _ => True) := by
  simp only [Typed, Uffdman.invalidatePrevResolvedPage, Client.get, ClientOp.call,
    Program.abides_bind, Program.abides_perform, Program.abides_ite]
  refine ⟨trivial, fun g _ => ⟨fun _ => ?_, fun _ => trivial⟩⟩
  simp only [Uffdman.invalidate, Program.abides_bind]
  apply typed_mapAt
  intro _ _ prevResolvedAddr _
  apply typed_mapAt
  intro _ _ prevResolvedOp _
  apply typed_mapAt
  intro _ _ regionStartAddr _
  simp only [Uffdman.resolveWrite, Program.abides_ite]
  constructor
  · intro _
    exact (typed_rmpPagefaultResovler _ _ _ _).mono (fun _ _ => ⟨trivial, fun _ _ => trivial⟩)
  · exact fun _ => ⟨trivial, fun _ _ => trivial⟩

lemma typed_resolveFault (uffd : Int) (faultingAddr faultingOp : Nat) :
    Typed (Uffdman.resolveFault Client.rmpPagefaultResovler uffd faultingAddr faultingOp)
      (fun _ => True) := by
  have hread : Typed (Uffdman.resolveRead Client.rmpPagefaultResovler uffd faultingAddr faultingOp)
      (fun _ => True) := by
    rw [Typed, Uffdman.resolveRead, Program.abides_ite]
    refine ⟨fun _ => ?_, fun _ => trivial⟩
    rw [Program.abides_bind]
    apply typed_mapAt
    intro _ _ regionStartAddr _
    exact typed_rmpPagefaultResovler _ _ _ _
  simp only [Typed, Uffdman.resolveFault, Program.abides_bind]
  apply (typed_invalidatePrevResolvedPage uffd).mono
  intro _ _
  apply hread.mono
  intro _ _
  simp [Uffdman.recordResolved, Client.uffdioCopy, Client.modify, ClientOp.call, SendsLong,
    LongHandles]

lemma typed_faultHandlerIteration (uffd : Int) :
    Typed (Uffdman.faultHandlerIteration Client.rmpPagefaultResovler uffd) (fun _ => True) := by
  have hfault : Typed (Uffdman.handlePagefault Client.rmpPagefaultResovler uffd)
      (fun _ => True) := by
    simp only [Typed, Uffdman.handlePagefault, Client.get, Client.lock, ClientOp.call,
      Program.abides_bind, Program.abides_perform]
    refine ⟨trivial, fun g _ => ⟨trivial, fun _ _ => ?_⟩⟩
    exact (typed_resolveFault uffd _ _).mono (fun _ _ => ⟨trivial, fun _ _ => trivial⟩)
  simp [Typed, Uffdman.faultHandlerIteration, Client.poll, Client.readMsg, Client.get,
    ClientOp.call, SendsLong, hfault]

lemma typed_createPage : Typed Uffdman.createPage (fun _ => True) := by
  simp [Typed, Uffdman.createPage, Client.pageIsNull, Client.mmapPage, ClientOp.call, SendsLong]

lemma typed_rmpInit : Typed Client.rmpInit (fun _ => True) := by
  have hinit : Typed Uffdman.init (fun _ => True) := by
    simp [Typed, Uffdman.init, Client.get, Client.modify, ClientOp.call, SendsLong, LongHandles]
  simp only [Typed, Client.rmpInit, Client.socket, Client.connect, Client.modify, ClientOp.call,
    Program.abides_bind, Program.abides_perform, Program.abides_ite, Program.abides_pure]
  refine ⟨trivial, fun _ _ => ⟨fun _ => trivial, fun _ => ⟨trivial, fun _ _ => ?_⟩⟩⟩
  refine ⟨fun _ => trivial, fun _ => ?_⟩
  refine ⟨fun g hg => hg, fun _ _ => hinit.mono ?_⟩
  intro _ _
  refine ⟨?_, fun _ _ => trivial⟩
  intro g _ k h hfind
  simp at hfind

lemma typed_malloc (size : Nat) : Typed (Preload.malloc size) (fun _ => True) := by
  have hhook : Typed Preload.preloadlibInit (fun _ => True) := by
    simp [Typed, Preload.preloadlibInit, Client.dlsym, Client.modify, ClientOp.call, SendsLong,
      LongHandles, typed_terminate]
  have hlocal : Typed (Preload.localMalloc size) (fun _ => True) := by
    simp [Typed, Preload.localMalloc, Client.get, Client.stdlibMalloc, ClientOp.call, SendsLong,
      hhook]
  have hconn : Typed Preload.rmpConnInit (fun _ => True) := by
    simp only [Typed, Preload.rmpConnInit, Client.lock, Client.modify, Client.pthreadSelf,
      Client.unlock, ClientOp.call, Program.abides_bind, Program.abides_perform]
    refine ⟨trivial, fun _ _ => ⟨fun g hg => hg, fun _ _ => ⟨trivial, fun self _ => ?_⟩⟩⟩
    refine ⟨fun g hg => hg, fun _ _ => typed_rmpInit.mono (fun fd _ => ?_)⟩
    exact ⟨fun g hg => hg, fun _ _ => ⟨fun g hg => hg, fun _ _ => ⟨trivial, fun _ _ => trivial⟩⟩⟩
  have hcheck : Typed Preload.checkConn (fun _ => True) := by
    simp [Typed, Preload.checkConn, Preload.hookOnce, Preload.connectOnce, Client.get,
      ClientOp.call, SendsLong, hhook, hconn]
  have hremote : Typed (Preload.remoteMalloc size) (fun _ => True) := by
    simp only [Typed, Preload.remoteMalloc, Client.lock, Client.modify, Client.unlock,
      ClientOp.call, Program.abides_bind, Program.abides_perform, Program.abides_pure]
    refine ⟨trivial, fun _ _ => ⟨fun g hg => hg, fun _ _ => (typed_rmpAlloc _).mono ?_⟩⟩
    intro _ _
    exact ⟨trivial, fun _ _ => ⟨fun g hg => hg, fun _ _ => ⟨trivial, fun _ _ => trivial⟩⟩⟩
  simp [Typed, Preload.malloc, Client.get, Client.pthreadSelf, ClientOp.call, SendsLong,
    hlocal, hcheck, hremote]

lemma handleAll_snoc (w : Host) (calls : List (Os × Packet)) (os : Os) (p : Packet) :
    w.handleAll (calls ++ [(os, p)]) =
      ((w.handleAll calls).1 ++ [((w.handleAll calls).2,
        ⟨os, p, ((w.handleAll calls).2.handle os p).1⟩)], ((w.handleAll calls).2.handle os p).2) := by
  induction calls generalizing w with
  | nil => rfl
  | cons x calls ih =>
    obtain ⟨os', p'⟩ := x
    rw [List.cons_append, Host.handleAll, ih]
    rfl

/-- The calls of `rmp::Server::handle` behind the exchanges in `log`. -/
structure Behave (w : Host) (log : List Exchange) (w' : Host) (calls : List (Os × Packet)) :
    Prop where
  requests : calls.map Prod.snd = log.map (fun x => x.request)
  replies : (w.handleAll calls).1.map (fun x => x.2.reply) = log.map (fun x => x.reply)
  host : (w.handleAll calls).2 = w'

/-- The handles of the process and of its packets are values of the C type, and the server has
come from `w` by answering the requests. -/
structure Transported (w : Host) (s : System) : Prop where
  handles : LongHandles s.globals
  waiting : ∀ x ∈ s.requests, IsLong x.2.hndl
  asked : ∀ x ∈ s.log, IsLong x.request.hndl
  served : ∃ calls, Behave w s.log s.host calls

section Runs

variable {w : Host} {env : Env} {s t : System}

lemma Transported.serve (h : Transported w s) {p : Packet} (hs : s.serve env = some (p, t)) :
    IsLong p.hndl ∧ Transported w t := by
  cases hreq : s.requests with
  | nil => simp [System.serve, hreq] at hs
  | cons x rest =>
    obtain ⟨call, request⟩ := x
    simp only [System.serve, hreq, Option.some.injEq, Prod.mk.injEq] at hs
    obtain ⟨rfl, rfl⟩ := hs
    have hwaiting := h.waiting
    rw [hreq, List.forall_mem_cons] at hwaiting
    obtain ⟨calls, hcalls⟩ := h.served
    refine ⟨?_, h.handles, hwaiting.2, forall_mem_snoc.mpr ⟨h.asked, hwaiting.1⟩, ?_⟩
    · exact ((handle_echoes request).run (ServerOp.exec env.serverOs) s.host).isLong hwaiting.1
    · refine ⟨calls ++ [(env.serverOs, request)], ?_, ?_, ?_⟩
      · rw [List.map_append, List.map_append, hcalls.requests]
        rfl
      · rw [handleAll_snoc, List.map_append, List.map_append, hcalls.replies, hcalls.host]
        rfl
      · rw [handleAll_snoc, hcalls.host]

/-- Operations off the socket leave the server alone, and only assignments record handles. -/
lemma exec_frame {op : ClientOp} (hop : OffSocket op) {r : op.Res}
    (hs : op.exec env s = some (r, t)) :
    t.requests = s.requests ∧ t.log = s.log ∧ t.host = s.host ∧
      ((∀ f, op ≠ .modify f) → t.globals.addrHndlMap = s.globals.addrHndlMap) := by
  cases op with
  | send p => exact hop.elim
  | recv => exact hop.elim
  | loadPage src => grind [ClientOp.exec, Option.map_eq_some_iff]
  | storePage dst data => cases dst <;> grind [ClientOp.exec, Option.map_eq_some_iff]
  | _ => grind [ClientOp.exec]

lemma Transported.congr (h : Transported w s)
    (hhandles : t.globals.addrHndlMap = s.globals.addrHndlMap) (hreq : t.requests = s.requests)
    (hlog : t.log = s.log) (hhost : t.host = s.host) : Transported w t where
  handles := by
    rw [LongHandles, hhandles]
    exact h.handles
  waiting := hreq ▸ h.waiting
  asked := hlog ▸ h.asked
  served := by
    rw [hlog, hhost]
    exact h.served

/-- Packets on the stack hold values of the C type. -/
def StackLong (env : Env) : Prop := ∀ n, IsLong (env.packetObject n).hndl

lemma Transported.exec (henv : StackLong env) {op : ClientOp} {r : op.Res}
    (hop : SendsLong op) (h : Transported w s) (hs : op.exec env s = some (r, t)) :
    HearsLong op r ∧ Transported w t := by
  rcases socket_cases op with ⟨p, rfl⟩ | rfl | hoff
  · obtain ⟨rfl, rfl⟩ := Prod.mk.inj (Option.some.inj hs)
    exact ⟨trivial, h.handles, forall_mem_snoc.mpr ⟨h.waiting, hop⟩, h.asked, h.served⟩
  · exact h.serve hs
  · obtain ⟨hreq, hlog, hhost, hhandles⟩ := exec_frame hoff hs
    cases op with
    | get =>
      obtain ⟨rfl, rfl⟩ := Prod.mk.inj (Option.some.inj hs)
      exact ⟨h.handles, h⟩
    | modify f =>
      obtain ⟨rfl, rfl⟩ := Prod.mk.inj (Option.some.inj hs)
      exact ⟨trivial, hop _ h.handles, h.waiting, h.asked, h.served⟩
    | packetObject =>
      obtain ⟨rfl, rfl⟩ := Prod.mk.inj (Option.some.inj hs)
      exact ⟨henv _, h⟩
    | send p => exact hoff.elim
    | recv => exact hoff.elim
    | _ => exact ⟨trivial, h.congr (hhandles (by simp)) hreq hlog hhost⟩

lemma line_exec {op : ClientOp} {waiting waiting' : Bool} {r : op.Res}
    (h : s.requests.length = waiting.toNat) (hs : op.exec env s = some (r, t))
    (hphase : SocketPhase waiting op r waiting') : t.requests.length = waiting'.toNat := by
  rcases socket_cases op with ⟨p, rfl⟩ | rfl | hoff
  · obtain ⟨rfl, rfl⟩ := phase_send hphase
    obtain ⟨rfl, rfl⟩ := Prod.mk.inj (Option.some.inj hs)
    simp [List.length_eq_zero_iff.mp h]
  · obtain ⟨rfl, rfl⟩ := phase_recv hphase
    obtain ⟨x, hx⟩ := List.length_eq_one_iff.mp h
    simp only [ClientOp.exec, System.serve, hx, Option.some.injEq, Prod.mk.injEq] at hs
    rw [← hs.2]
    rfl
  · rw [SocketPhase, socketPhase_offSocket hoff] at hphase
    obtain rfl := Option.some.inj hphase
    rw [(exec_frame hoff hs).1]
    exact h

/-- Between two acts every request has been answered. -/
structure AtRest (w : Host) (s : System) : Prop where
  transported : Transported w s
  answered : s.requests = []

lemma AtRest.execute {α : Type} {x : ClientM α} {post : α → Prop} {a : α} (h : AtRest w s)
    (henv : StackLong env) (hx : Typed x post) (hkeeps : x.Keeps SocketPhase false)
    (hs : s.execute env x = some (a, t)) : AtRest w t where
  transported := (hx.runPartial (fun hop hI hr => hI.exec henv hop hr) h.transported hs).1
  answered := by
    have hline : t.requests.length = false.toNat :=
      hkeeps.runPartial (I := fun waiting s => s.requests.length = waiting.toNat)
        line_exec (by simp [h.answered]) hs
    exact List.length_eq_zero_iff.mp hline

lemma AtRest.fetch (h : AtRest w s) (henv : StackLong env) {byWrite : Bool} {addr : Nat}
    {x : Page × System} (hx : s.fetch env byWrite addr = some x) : AtRest w x.2 := by
  rcases fetch_eq_some hx with hsame | hfault
  · rw [hsame]
    exact h
  · obtain ⟨uffd, hiter⟩ := fault_eq_some hfault
    have hraised : AtRest w (raised uffd byWrite addr s) :=
      ⟨h.transported.congr rfl rfl rfl rfl, h.answered⟩
    exact hraised.execute henv (typed_faultHandlerIteration uffd)
      (brackets_socketPhase.faultHandlerIteration uffd) hiter

lemma AtRest.act (h : AtRest w s) (henv : StackLong env) {a : ProgramAct} {o : Observation}
    (hs : System.act (env, a) s = some (o, t)) : AtRest w t := by
  cases a with
  | malloc size =>
    obtain ⟨x, hx, he⟩ := Option.map_eq_some_iff.mp hs
    obtain ⟨-, rfl⟩ := Prod.mk.inj he
    exact h.execute henv (typed_malloc size) (brackets_socketPhase.malloc size) hx
  | free ptr =>
    obtain ⟨-, rfl⟩ := Prod.mk.inj (Option.some.inj hs)
    exact h
  | load addr =>
    obtain ⟨x, hx, he⟩ := Option.map_eq_some_iff.mp hs
    obtain ⟨-, rfl⟩ := Prod.mk.inj he
    obtain ⟨y, hy, rfl⟩ := Option.map_eq_some_iff.mp hx
    exact h.fetch henv hy
  | store addr value =>
    obtain ⟨x, hx, he⟩ := Option.map_eq_some_iff.mp hs
    obtain ⟨-, rfl⟩ := Prod.mk.inj he
    obtain ⟨y, hy, rfl⟩ := Option.map_eq_some_iff.mp hx
    have hfetched := h.fetch henv hy
    exact ⟨hfetched.transported.congr rfl rfl rfl rfl, hfetched.answered⟩
  | handlerStart =>
    obtain ⟨x, hx, he⟩ := Option.map_eq_some_iff.mp hs
    obtain ⟨-, rfl⟩ := Prod.mk.inj he
    exact h.execute henv typed_createPage (keeps_createPage neutral_socketPhase) hx

lemma AtRest.acts {acts : List (Env × ProgramAct)} (h : AtRest w s)
    (henv : ∀ x ∈ acts, StackLong x.1) {obs : List Observation}
    (hs : observe System.act acts s = some (obs, t)) : AtRest w t := by
  induction acts generalizing s obs with
  | nil =>
    obtain ⟨-, rfl⟩ := Prod.mk.inj (Option.some.inj hs)
    exact h
  | cons a acts ih =>
    rw [List.forall_mem_cons] at henv
    obtain ⟨x, hx, hrest⟩ := Option.bind_eq_some_iff.mp hs
    obtain ⟨y, hy, he⟩ := Option.map_eq_some_iff.mp hrest
    obtain ⟨-, rfl⟩ := Prod.mk.inj he
    exact ih (h.act henv.1 hx) henv.2 hy

lemma start_atRest (mem : Nat → UInt8) : AtRest (Host.fresh mem) (System.start mem) where
  transported :=
    { handles := by
        intro k h hfind
        simp [System.start, Shared.fresh] at hfind
      waiting := by simp [System.start, System.init]
      asked := by simp [System.start, System.init]
      served := ⟨[], rfl, rfl, rfl⟩ }
  answered := rfl

end Runs

/-- The kernel of the server answers the `n`th call as recorded. -/
def recordedOs (calls : List (Os × Packet)) (n : Nat) : Os :=
  ((calls[n]?).map Prod.fst).getD refusingOs

lemma callsFor_recordedOs {calls : List (Os × Packet)} {objs : List PacketObject}
    (h : objs.map (fun o => o.packet) = calls.map Prod.snd) :
    callsFor (recordedOs calls) 0 objs = calls := by
  have hlen : objs.length = calls.length := by
    simpa using congrArg List.length h
  apply List.ext_getElem
  · simp [callsFor, hlen]
  · intro n hn hn'
    have hobj : n < objs.length := hlen ▸ hn'
    have hpacket : objs[n].packet = calls[n].2 := by
      have hget := List.getElem_of_eq h (by rwa [List.length_map])
      rwa [List.getElem_map, List.getElem_map] at hget
    simp only [callsFor, recordedOs, List.getElem_map, List.getElem_zipIdx, Nat.zero_add, hpacket,
      List.getElem?_eq_getElem hn', Option.map_some, Option.getD_some]

/-- Whatever an unmodified program does under the preload library, between two of its acts every
request of its process has been answered, the requests are values of the C type, and whatever their
padding is, the handler of the connection leaves the server in the state it is in when the bytes of
the requests arrive, and sends the bytes of the replies. -/
theorem session_on_the_wire (mem : Nat → UInt8) {acts : List (Env × ProgramAct)}
    (henv : ∀ x ∈ acts, StackLong x.1) {obs : List Observation} {s : System}
    (h : observe System.act acts (System.start mem) = some (obs, s)) :
    s.requests = [] ∧ (∀ x ∈ s.log, IsLong x.request.hndl) ∧
      ∃ os : Nat → Os, ∀ (req : Buffer) (objs : List PacketObject),
        objs.map (fun o => o.packet) = s.log.map (fun x => x.request) →
          let c := connectionHandler os (Host.fresh mem) req.1 (objs.map (fun o => o.encode.1))
          c.host = s.host ∧ ∃ replies : List PacketObject,
            replies.map (fun o => o.packet) = s.log.map (fun x => x.reply) ∧
              replies.map (fun o => o.padding) = objs.map (fun o => o.padding) ∧
              c.sent = (replies.map (fun o => o.encode.1)).flatten := by
  have hrest := (start_atRest mem).acts henv h
  obtain ⟨calls, hcalls⟩ := hrest.transported.served
  refine ⟨hrest.answered, hrest.transported.asked, recordedOs calls, ?_⟩
  intro req objs hobjs
  have heq := callsFor_recordedOs (hobjs.trans hcalls.requests.symm)
  obtain ⟨hsent, hhost⟩ := connectionHandler_encode (recordedOs calls) (Host.fresh mem) req objs
  rw [heq, hcalls.host] at hhost
  refine ⟨hhost, replyObjects (recordedOs calls) (Host.fresh mem) 0 objs, ?_, ?_, hsent⟩
  · rw [replyObjects_packet, heq]
    exact hcalls.replies
  · exact replyObjects_padding _ _ 0 objs

/-- A program allocates two pages, stores a byte to the first one and loads one of the second: three
requests, since the first page is written back. -/
def firstActs : List (Env × ProgramAct) :=
  [(firstEnv, .malloc 5000), (firstEnv, .handlerStart), (firstEnv, .store 4096 7),
    (firstEnv, .load 8192)]

theorem first_store_on_the_wire :
    ∃ obs s, observe System.act firstActs (System.start fun _ => 0) = some (obs, s) ∧
      s.log.map (fun x => x.request.action) = [0, 2, 1] ∧ s.requests = [] ∧
      ∃ os : Nat → Os, ∀ (req : Buffer) (objs : List PacketObject),
        objs.map (fun o => o.packet) = s.log.map (fun x => x.request) →
          (connectionHandler os (Host.fresh fun _ => 0) req.1
            (objs.map (fun o => o.encode.1))).host = s.host := by
  have hsome : (observe System.act firstActs (System.start fun _ => 0)).map
      (fun x => x.2.log.map (fun y => y.request.action)) = some [0, 2, 1] := by
    decide +kernel
  obtain ⟨⟨obs, s⟩, hs, hactions⟩ := Option.map_eq_some_iff.mp hsome
  have henv : ∀ x ∈ firstActs, StackLong x.1 := by
    simp [firstActs, StackLong, grantingEnv, IsLong]
  obtain ⟨hreq, -, os, hwire⟩ := session_on_the_wire (fun _ => 0) henv hs
  exact ⟨obs, s, hs, hactions, hreq, os, fun req objs hobjs => (hwire req objs hobjs).1⟩

end RemoteMemoryPool.Proofs
