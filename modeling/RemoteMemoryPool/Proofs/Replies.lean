import RemoteMemoryPool.Lib.Pairing
import RemoteMemoryPool.Proofs.ThreadPhases
import Mathlib.Data.Fintype.Basic

/-!
# Replies on the shared socket

Threads of one client process share a socket; a reply carries no mark of the request it answers.
Every operation sends one request and receives one reply, so a thread's `recv` gets the reply to
its own request exactly if no other thread still waits for the reply to an older one. The
mutex makes sure of that between fault handlers, but the public methods of `rmp::Client` do not
take it.
-/

namespace RemoteMemoryPool.Proofs

open Interaction Transition Pairing

/-- Whether a thread has sent a request and not received a reply, moved by its operations. -/
def socketPhase (waiting : Bool) : ClientOp → Option Bool
  | .send _ => if waiting then none else some true
  | .recv => if waiting then some false else none
  | _ => some waiting

def OffSocket : ClientOp → Prop
  | .send _ => False
  | .recv => False
  | _ => True

lemma socketPhase_offSocket {op : ClientOp} (hop : OffSocket op) (waiting : Bool) :
    socketPhase waiting op = some waiting := by
  cases op with
  | send p => exact hop.elim
  | recv => exact hop.elim
  | _ => rfl

def SocketPhase (waiting : Bool) (op : ClientOp) (_ : op.Res) (waiting' : Bool) : Prop :=
  socketPhase waiting op = some waiting'

lemma neutral_socketPhase : Neutral SocketPhase := by
  intro waiting op r waiting' hop
  have hsame : socketPhase waiting op = some waiting := by
    cases op <;> first | rfl | exact hop.elim
  rw [SocketPhase, hsame, Option.some.injEq]
  exact eq_comm

lemma exchanges_socketPhase : Exchanges SocketPhase false := fun _ => ⟨true, rfl, fun _ => rfl⟩

lemma brackets_socketPhase : Brackets SocketPhase false false where
  neutral := neutral_socketPhase
  lock := rfl
  unlock _ _ := rfl
  scopeExit := rfl
  outside := requests_of_exchanges neutral_socketPhase exchanges_socketPhase
  inside := requests_of_exchanges neutral_socketPhase exchanges_socketPhase

/-- Every thread alternates between sending and receiving. -/
lemma keeps_threadWork (work : ThreadWork) : work.run.Keeps SocketPhase false :=
  brackets_socketPhase.job (.work work)

section Runs

variable {ι : Type} [DecidableEq ι] {tid : ι → Nat}

/-- The number of the request a thread has sent and not received a reply to. -/
def awaiting (h : History ι) : ι → Option Nat :=
  h.foldl (fun w x => match x.2 with
    | .act ⟨i, .send _, _⟩ => Function.update w i (some x.1.state.sent)
    | .act ⟨i, .recv, _⟩ => Function.update w i none
    | _ => w) (fun _ => none)

/-- The packet is what the server replied to the request with the number. -/
def Answered (h : History ι) (reply : Numbered) : Prop :=
  ∃ c os request rest, (c, .serve os) ∈ h ∧ c.state.requests = request :: rest ∧
    request.number = reply.number ∧ reply.packet = (c.state.host.handle os request.packet).1

/-- The thread that receives in a step, with the packet it gets. -/
def receives : ProcessEvent ι → Option (ι × Packet)
  | .act ⟨i, .recv, r⟩ => some (i, r)
  | _ => none

/-- A thread that receives gets the server's reply to the request it sent. -/
def OwnReply (h : History ι) (c : Process ι) (e : ProcessEvent ι) : Prop :=
  ∀ x ∈ receives e, ∃ reply ∈ c.state.replies.head?, x.2 = reply.packet ∧
    awaiting h x.1 = some reply.number ∧ Answered h reply

/-- A thread that receives has sent its request before every other thread that waits. -/
def InOrder (h : History ι) (e : ProcessEvent ι) : Prop :=
  ∀ x ∈ receives e, ∀ j, j ≠ x.1 → ∀ k ∈ awaiting h x.1, ∀ m ∈ awaiting h j, k < m

instance [Fintype ι] (h : History ι) (e : ProcessEvent ι) : Decidable (InOrder h e) :=
  inferInstanceAs (Decidable (∀ x ∈ receives e, ∀ j, j ≠ x.1 →
    ∀ k ∈ awaiting h x.1, ∀ m ∈ awaiting h j, k < m))

/-- The numbers on the line are those the threads wait for, as long as all replies received so
far were the threads' own. -/
structure Lined (h : History ι) (c : Process ι) : Prop where
  follows : ∀ i, (c.threads i).Follows SocketPhase (awaiting h i).isSome (fun _ _ => True)
  paired : Paired (awaiting h) ((c.state.replies ++ c.state.requests).map Numbered.number)
    c.state.sent
  answered : ∀ reply ∈ c.state.replies, Answered h reply

omit [DecidableEq ι] in
lemma event_cases (e : ProcessEvent ι) :
    (∃ os, e = .serve os) ∨ (∃ i p, e = .act ⟨i, .send p, ()⟩) ∨ (∃ i r, e = .act ⟨i, .recv, r⟩) ∨
      ∃ i op r, OffSocket op ∧ e = .act ⟨i, op, r⟩ := by
  cases e with
  | serve os => exact .inl ⟨os, rfl⟩
  | act a =>
    obtain ⟨i, op, r⟩ := a
    cases op with
    | send p => exact .inr (.inl ⟨i, p, rfl⟩)
    | recv => exact .inr (.inr (.inl ⟨i, r, rfl⟩))
    | _ => exact .inr (.inr (.inr ⟨i, _, r, trivial, rfl⟩))

lemma awaiting_send (h : History ι) (c : Process ι) (i : ι) (p : Packet) :
    awaiting (h ++ [(c, .act ⟨i, .send p, ()⟩)]) =
      Function.update (awaiting h) i (some c.state.sent) := by
  simp [awaiting]

lemma awaiting_recv (h : History ι) (c : Process ι) (i : ι) (r : Packet) :
    awaiting (h ++ [(c, .act ⟨i, .recv, r⟩)]) = Function.update (awaiting h) i none := by
  simp [awaiting]

lemma awaiting_serve (h : History ι) (c : Process ι) (os : Os) :
    awaiting (h ++ [(c, .serve os)]) = awaiting h := by
  simp [awaiting]

lemma awaiting_offSocket (h : History ι) (c : Process ι) {i : ι} {op : ClientOp} {r : op.Res}
    (hop : OffSocket op) : awaiting (h ++ [(c, .act ⟨i, op, r⟩)]) = awaiting h := by
  rw [awaiting, List.foldl_append]
  cases op with
  | send p => exact hop.elim
  | recv => exact hop.elim
  | _ => rfl

lemma effect_offSocket {op : ClientOp} {t : Nat} {s s' : Shared} {r : op.Res} (hop : OffSocket op)
    (h : op.Effect t s r s') :
    s'.sent = s.sent ∧ s'.requests = s.requests ∧ s'.replies = s.replies := by
  cases op with
  | send p => exact hop.elim
  | recv => exact hop.elim
  | get => simp [h.2]
  | pthreadSelf => simp [h.2]
  | lock => simp [h.2]
  | readMsg uffd =>
    obtain ⟨msg, rfl⟩ := h
    simp
  | modify f =>
    obtain rfl := h
    simp
  | unlock site =>
    obtain rfl := h
    simp
  | _ =>
    obtain rfl := h
    simp

omit [DecidableEq ι] in
lemma Answered.snoc {h : History ι} {reply : Numbered} (hr : Answered h reply)
    (x : Process ι × ProcessEvent ι) : Answered (h ++ [x]) reply := by
  obtain ⟨c, os, request, rest, hmem, hc⟩ := hr
  exact ⟨c, os, request, rest, List.mem_append_left _ hmem, hc⟩

lemma phase_send {p : Packet} {waiting waiting' : Bool}
    (h : socketPhase waiting (.send p) = some waiting') : waiting = false ∧ waiting' = true := by
  cases waiting <;> simp_all [socketPhase]

lemma phase_recv {waiting waiting' : Bool} (h : socketPhase waiting .recv = some waiting') :
    waiting = true ∧ waiting' = false := by
  cases waiting <;> simp_all [socketPhase]

/-- What a thread that receives finds: its own number awaited and a reply at the head. -/
lemma recv_spec {h : History ι} {c c' : Process ι} {i : ι} {r : Packet} (hI : Lined h c)
    (hs : Process.Step tid c (.act ⟨i, .recv, r⟩) c') :
    ∃ m reply rest, awaiting h i = some m ∧ c.state.replies = reply :: rest ∧ r = reply.packet ∧
      c'.state = { c.state with replies := rest } ∧
      Paired (awaiting h) (reply.number :: (rest ++ c.state.requests).map Numbered.number)
        c.state.sent ∧
      ∀ j, (c'.threads j).Follows SocketPhase
        (if i = j then false else (awaiting h j).isSome) (fun _ _ => True) := by
  obtain ⟨q', hphase, ⟨reply, rest, hreplies, hr, hstate⟩, hfollows⟩ := act_follows hs hI.follows
  obtain ⟨hwaits, rfl⟩ := phase_recv hphase
  obtain ⟨m, hm⟩ := Option.isSome_iff_exists.mp hwaits
  have hpaired := hI.paired
  rw [hreplies] at hpaired
  exact ⟨m, reply, rest, hm, hreplies, hr, hstate, hpaired, hfollows⟩

omit [DecidableEq ι] in
lemma receives_offSocket {i : ι} {op : ClientOp} {r : op.Res} (hop : OffSocket op) :
    receives (.act ⟨i, op, r⟩) = none := by
  cases op with
  | send p => exact hop.elim
  | recv => exact hop.elim
  | _ => rfl

lemma ownReply_iff_inOrder {h : History ι} {c c' : Process ι} {e : ProcessEvent ι}
    (hI : Lined h c) (hs : Process.Step tid c e c') : OwnReply h c e ↔ InOrder h e := by
  rcases event_cases e with ⟨os, rfl⟩ | ⟨i, p, rfl⟩ | ⟨i, r, rfl⟩ | ⟨i, op, r, hop, rfl⟩
  · simp [OwnReply, InOrder, receives]
  · simp [OwnReply, InOrder, receives]
  · obtain ⟨m, reply, rest, hm, hreplies, hr, -, hpaired, -⟩ := recv_spec hI hs
    have hhead := hpaired.head_iff hm
    constructor
    · rintro hown x hx j hji k hk n hn
      obtain rfl := Option.some.inj hx
      obtain ⟨reply', hreply', -, hnum', -⟩ := hown _ rfl
      obtain rfl : reply = reply' := by simpa [hreplies] using hreply'
      obtain rfl : k = m := Option.some.inj (hk.symm.trans hm)
      have hnum : reply.number = k := Option.some.inj (hnum'.symm.trans hm)
      exact hhead.mp hnum j n hji hn
    · rintro horder x hx
      obtain rfl := Option.some.inj hx
      have hnum : reply.number = m :=
        hhead.mpr (fun j n hji hn => horder _ rfl j hji m hm n hn)
      refine ⟨reply, by simp [hreplies], hr, by rw [hnum, hm], ?_⟩
      exact hI.answered reply (by simp [hreplies])
  · simp [OwnReply, InOrder, receives_offSocket hop]

lemma lined_recv {h : History ι} {c c' : Process ι} {i : ι} {r : Packet} (hI : Lined h c)
    (hown : OwnReply h c (.act ⟨i, .recv, r⟩)) (hs : Process.Step tid c (.act ⟨i, .recv, r⟩) c') :
    Lined (h ++ [(c, .act ⟨i, .recv, r⟩)]) c' := by
  obtain ⟨m, reply, rest, hm, hreplies, -, hstate, hpaired, hfollows⟩ := recv_spec hI hs
  obtain ⟨reply', hreply', -, hnum, -⟩ := hown _ rfl
  obtain rfl : reply = reply' := by simpa [hreplies] using hreply'
  constructor
  · intro j
    rw [awaiting_recv]
    by_cases hij : i = j
    · simpa [hij] using hfollows j
    · simpa [hij, Ne.symm hij] using hfollows j
  · rw [awaiting_recv, hstate]
    exact hpaired.recv hnum
  · intro reply' hmem
    rw [hstate] at hmem
    apply Answered.snoc
    exact hI.answered reply' (by rw [hreplies]; exact List.mem_cons_of_mem _ hmem)

lemma lined_send {h : History ι} {c c' : Process ι} {i : ι} {p : Packet} (hI : Lined h c)
    (hs : Process.Step tid c (.act ⟨i, .send p, ()⟩) c') :
    Lined (h ++ [(c, .act ⟨i, .send p, ()⟩)]) c' := by
  obtain ⟨q', hphase, hstate, hfollows⟩ := act_follows hs hI.follows
  obtain ⟨hidle, rfl⟩ := phase_send hphase
  have hnone : awaiting h i = none := by simpa using hidle
  constructor
  · intro j
    rw [awaiting_send]
    by_cases hij : i = j
    · simpa [hij] using hfollows j
    · simpa [hij, Ne.symm hij] using hfollows j
  · rw [awaiting_send, hstate]
    simpa using hI.paired.send hnone
  · intro reply hmem
    rw [hstate] at hmem
    exact (hI.answered reply hmem).snoc _

lemma lined_serve {h : History ι} {c c' : Process ι} {os : Os} (hI : Lined h c)
    (hs : Process.Step tid c (.serve os) c') : Lined (h ++ [(c, .serve os)]) c' := by
  obtain ⟨hthreads, request, rest, hrequests, -, hstate⟩ := hs
  constructor
  · rw [hthreads, awaiting_serve]
    exact hI.follows
  · have hpaired := hI.paired
    rw [hrequests] at hpaired
    rw [awaiting_serve, hstate]
    simpa using hpaired
  · intro reply hmem
    rw [hstate] at hmem
    rcases List.mem_append.mp hmem with hmem | hmem
    · exact (hI.answered reply hmem).snoc _
    · obtain rfl := List.mem_singleton.mp hmem
      exact ⟨c, os, request, rest, by simp, hrequests, rfl, rfl⟩

lemma lined_offSocket {h : History ι} {c c' : Process ι} {i : ι} {op : ClientOp} {r : op.Res}
    (hop : OffSocket op) (hI : Lined h c) (hs : Process.Step tid c (.act ⟨i, op, r⟩) c') :
    Lined (h ++ [(c, .act ⟨i, op, r⟩)]) c' := by
  obtain ⟨q', hphase, heffect, hfollows⟩ := act_follows hs hI.follows
  obtain ⟨hsent, hrequests, hreplies⟩ := effect_offSocket hop heffect
  have hq : (awaiting h i).isSome = q' := by simpa [SocketPhase, socketPhase_offSocket hop] using hphase
  constructor
  · intro j
    rw [awaiting_offSocket h c hop]
    by_cases hij : i = j
    · subst hij
      simpa [hq] using hfollows i
    · simpa [hij] using hfollows j
  · rw [awaiting_offSocket h c hop, hsent, hrequests, hreplies]
    exact hI.paired
  · intro reply hmem
    rw [hreplies] at hmem
    exact (hI.answered reply hmem).snoc _

lemma lined_step (h : History ι) (c : Process ι) (e : ProcessEvent ι) (c' : Process ι)
    (hI : Lined h c) (hown : OwnReply h c e) (hs : Process.Step tid c e c') :
    Lined (h ++ [(c, e)]) c' := by
  rcases event_cases e with ⟨os, rfl⟩ | ⟨i, p, rfl⟩ | ⟨i, r, rfl⟩ | ⟨i, op, r, hop, rfl⟩
  · exact lined_serve hI hs
  · exact lined_send hI hs
  · exact lined_recv hI hown hs
  · exact lined_offSocket hop hI hs

/-- Over every run of any number of threads that call public methods or resolve page faults:
every thread receives the server's reply to the request it sent, exactly if every thread that
receives has sent its request before all other threads that wait for a reply. -/
theorem own_replies_iff (work : ι → ThreadWork) (s : Shared) (hrequests : s.requests = [])
    (hreplies : s.replies = []) {tr : History ι} {c : Process ι}
    (hr : Run (Process.Step tid) ⟨fun i => (work i).run, s⟩ tr c) :
    (∀ h x, h ++ [x] <+: tr → OwnReply h x.1 x.2) ↔ ∀ h x, h ++ [x] <+: tr → InOrder h x.2 := by
  have hI : Lined [] (⟨fun i => (work i).run, s⟩ : Process ι) := by
    constructor
    · intro i
      exact (keeps_threadWork (work i)).follows (fun _ => trivial)
    · rw [hrequests, hreplies]
      exact Paired.idle (fun _ => rfl)
    · simp [hreplies]
  exact hr.history_forall_iff lined_step (fun _ _ _ _ hI hs => ownReply_iff_inOrder hI hs) hI

end Runs

section TwoReaders

/-- Two threads that each read one page: `false` from handle 0, `true` from handle 1. -/
def twoReaders (reader : Bool) : ThreadWork :=
  .calls [.read (if reader then 1 else 0) 0 (.mem 4096)]

/-- A connected process and a server with two regions, the second of which holds ones. -/
def readersShared : Shared where
  globals := { Shared.fresh.globals with connected := true }
  locked := false
  sent := 0
  requests := []
  replies := []
  host := ((Host.fresh (fun _ => 0)).handleAll
    [(⟨some 4096, true⟩, ⟨0, 1, 4096, 0, 0, zeroPage, 0⟩),
      (⟨some 8192, true⟩, ⟨0, 1, 4096, 0, 0, zeroPage, 0⟩),
      (⟨none, true⟩, ⟨1, 0, 4096, 0, 2, fun _ => 1, 0⟩)]).2

def readers : Process Bool := ⟨fun i => (twoReaders i).run, readersShared⟩

/-- Both threads send before either receives; the replies are received in the same order. -/
def receiveInOrder : List (Option Bool) :=
  List.replicate 3 (some false) ++ List.replicate 3 (some true) ++
    [none, none, some false, some true]

/-- The same, but the second thread receives first. -/
def receiveSwapped : List (Option Bool) :=
  List.replicate 3 (some false) ++ List.replicate 3 (some true) ++
    [none, none, some true, some false]

lemma eq_take_of_prefix {X : Type} {h l : List X} {x : X} (hp : h ++ [x] <+: l) :
    h = l.take h.length ∧ l[h.length]? = some x := by
  obtain ⟨t, rfl⟩ := hp
  simp

theorem overlapping_reads_own_replies :
    ∃ tr c, Run (Process.Step (fun _ => 0)) readers tr c ∧ tr.length = 10 ∧
      (∀ h x, h ++ [x] <+: tr → InOrder h x.2) ∧ ∀ h x, h ++ [x] <+: tr → OwnReply h x.1 x.2 := by
  have hsome : ((readers.execute (fun _ => 0) receiveInOrder).map (fun y =>
      (y.1.length, decide (∀ n < 10, ∀ x ∈ y.1[n]?, InOrder (y.1.take n) x.2)))) = some (10, true) := by
    decide +kernel
  obtain ⟨⟨tr, c⟩, hexec, hx⟩ := Option.map_eq_some_iff.mp hsome
  obtain ⟨hlen, hall⟩ : tr.length = 10 ∧ _ := Prod.mk.inj hx
  have horder : ∀ h x, h ++ [x] <+: tr → InOrder h x.2 := by
    intro h x hp
    obtain ⟨htake, hget⟩ := eq_take_of_prefix hp
    have hlt : h.length < 10 := by
      have := hp.length_le
      simp only [List.length_append, List.length_singleton] at this
      omega
    rw [htake]
    exact of_decide_eq_true hall h.length hlt x hget
  have hrun := run_of_execute hexec
  exact ⟨tr, c, hrun, hlen, horder, (own_replies_iff twoReaders readersShared rfl rfl hrun).mpr horder⟩

/-- The thread that reads handle 1 receives the reply to the request for handle 0. -/
theorem concurrent_reads_swapped :
    ∃ tr c, Run (Process.Step (fun _ => 0)) readers tr c ∧
      ¬∀ h x, h ++ [x] <+: tr → OwnReply h x.1 x.2 := by
  have hsome : ((readers.execute (fun _ => 0) receiveSwapped).bind (fun y =>
      y.1[8]?.map (fun x => ((receives x.2).map (fun z => (z.1, z.2.hndl, z.2.data 0)),
        awaiting (y.1.take 8) true, x.1.state.replies.head?.map Numbered.number)))) =
          some (some (true, 0, 0), some 1, some 0) := by
    decide +kernel
  obtain ⟨⟨tr, c⟩, hexec, hget⟩ := Option.bind_eq_some_iff.mp hsome
  obtain ⟨x, hx, hfacts⟩ := Option.map_eq_some_iff.mp hget
  simp only [Prod.mk.injEq] at hfacts
  obtain ⟨hrec, hawait, hnumber⟩ := hfacts
  refine ⟨tr, c, run_of_execute hexec, ?_⟩
  intro hall
  have hp : tr.take 8 ++ [x] <+: tr := by
    have htake : tr.take 9 = tr.take 8 ++ [x] := by rw [List.take_add_one, hx, Option.toList_some]
    rw [← htake]
    exact List.take_prefix 9 tr
  obtain ⟨z, hz, hzeq⟩ := Option.map_eq_some_iff.mp hrec
  obtain ⟨reply, hreply, -, hown, -⟩ := hall _ _ hp z hz
  simp only [Prod.mk.injEq] at hzeq
  rw [hzeq.1, hawait] at hown
  rw [hreply] at hnumber
  simp [← Option.some.inj hown] at hnumber

end TwoReaders

end RemoteMemoryPool.Proofs
