import RemoteMemoryPool.Lib.Runs
import RemoteMemoryPool.Model.Listener
import RemoteMemoryPool.Proofs.PageStore
import RemoteMemoryPool.Proofs.Wire

/-!
# The server and all its clients

The main thread joins the handler of a connection before it accepts the next one. Whatever the
clients do and in whatever order, the connections are therefore served one after another in the
order they arrived: `connections_served_in_turn`. The server they share keeps its regions when a
client disconnects, and all their requests together see one page store:
`connections_share_pages`. A failed `accept` is not noticed: `failed_accepts_ignored`.
-/

namespace RemoteMemoryPool.Proofs

open Interaction Transition

variable {κ : Type} {os : κ → Nat → Os} {fresh : κ → List UInt8}

/-! ### What a run did -/

abbrev NetHistory (κ : Type) := List (Listener κ × NetEvent κ)

/-- The connections in the order they arrived. -/
def arrived (tr : NetHistory κ) : List κ :=
  tr.filterMap (fun x => match x.2 with
    | .connect k => some k
    | _ => none)

def taken (tr : NetHistory κ) : List κ :=
  tr.filterMap (fun x => match x.2 with
    | .accept k _ _ => some k
    | _ => none)

/-- The connections for which a handler was started. -/
def accepted (tr : NetHistory κ) : List κ :=
  tr.filterMap (fun x => match x.2 with
    | .accept k clientSock created => if clientSock ≠ 0 ∧ 0 ≤ created then some k else none
    | _ => none)

def chunksOf [DecidableEq κ] (tr : NetHistory κ) (k : κ) : List (List UInt8) :=
  tr.filterMap (fun x => match x.2 with
    | .recv k' chunk => if k' = k then some chunk else none
    | _ => none)

def sentBy [DecidableEq κ] (tr : NetHistory κ) (k : κ) : List UInt8 :=
  tr.flatMap (fun x => match x.2 with
    | .send k' bytes => if k' = k then bytes else []
    | _ => [])

/-- The handler of connection `k`, started on the server `w`, once it has received `chunks k`. -/
def sessionOf (os : κ → Nat → Os) (fresh : κ → List UInt8) (chunks : κ → List (List UInt8)) (w : Host)
    (k : κ) : Connection :=
  connectionHandler (os k) w (fresh k) (chunks k)

/-- The server after the handlers of the given connections have run one after another. -/
def serveAll (os : κ → Nat → Os) (fresh : κ → List UInt8) (chunks : κ → List (List UInt8))
    (w : Host) (ks : List κ) : Host :=
  ks.foldl (fun w k => (sessionOf os fresh chunks w k).host) w

/-- The connections are served one after another in the order they arrived: the server is in the
state the handlers of the accepted connections leave when they run one after another, each client
has been sent what its handler sends then, its bytes are received in order, and a connection that
has not been accepted has neither been read from nor been answered. A process that was killed
leaves no answer to its last request. -/
structure Serial [DecidableEq κ] (os : κ → Nat → Os) (fresh : κ → List UInt8) (w : Host) (tr : NetHistory κ)
    (s : Listener κ) : Prop where
  fifo : arrived tr = taken tr ++ s.backlog
  once : (arrived tr).Nodup
  known : ∀ k, k ∈ arrived tr ↔ s.connected k = true
  some_taken : (accepted tr).Sublist (taken tr)
  host : s.host = serveAll os fresh (chunksOf tr) w (accepted tr)
  answered : ∀ before k after, accepted tr = before ++ k :: after →
    s.outbox k = (sessionOf os fresh (chunksOf tr) (serveAll os fresh (chunksOf tr) w before) k).sent
  stream : ∀ k, (chunksOf tr k).flatten ++ s.inbox k = sentBy tr k
  unserved : ∀ k, k ∉ accepted tr → chunksOf tr k = [] ∧ s.outbox k = []
  current : ∀ k n req, s.main = .serving (some k) n req →
    ∃ before, accepted tr = before ++ [k] ∧ n = (chunksOf tr k).length ∧
      req = (sessionOf os fresh (chunksOf tr) (serveAll os fresh (chunksOf tr) w before) k).req

lemma arrived_snoc (tr : NetHistory κ) (s : Listener κ) (e : NetEvent κ) :
    arrived (tr ++ [(s, e)]) = arrived tr ++ arrived [(s, e)] := List.filterMap_append

lemma taken_snoc (tr : NetHistory κ) (s : Listener κ) (e : NetEvent κ) :
    taken (tr ++ [(s, e)]) = taken tr ++ taken [(s, e)] := List.filterMap_append

lemma accepted_snoc (tr : NetHistory κ) (s : Listener κ) (e : NetEvent κ) :
    accepted (tr ++ [(s, e)]) = accepted tr ++ accepted [(s, e)] := List.filterMap_append

lemma arrived_snoc_of_nil (tr : NetHistory κ) {s : Listener κ} {e : NetEvent κ}
    (h : arrived [(s, e)] = []) : arrived (tr ++ [(s, e)]) = arrived tr := by
  rw [arrived_snoc, h, List.append_nil]

lemma connectionHandler_snoc (os : Nat → Os) (w : Host) (req : List UInt8)
    (chunks : List (List UInt8)) (chunk : List UInt8) :
    connectionHandler os w req (chunks ++ [chunk]) =
      (connectionHandler os w req chunks).iterate os chunk := by
  unfold connectionHandler
  rw [List.foldl_append]
  rfl

lemma serveAll_snoc (os : κ → Nat → Os) (fresh : κ → List UInt8) (chunks : κ → List (List UInt8))
    (w : Host) (ks : List κ) (k : κ) :
    serveAll os fresh chunks w (ks ++ [k]) =
      (sessionOf os fresh chunks (serveAll os fresh chunks w ks) k).host := by
  unfold serveAll
  rw [List.foldl_append]
  rfl

lemma sessionOf_congr {chunks chunks' : κ → List (List UInt8)} {k : κ} (h : chunks' k = chunks k)
    (w : Host) : sessionOf os fresh chunks' w k = sessionOf os fresh chunks w k := by
  unfold sessionOf
  rw [h]

lemma serveAll_congr {chunks chunks' : κ → List (List UInt8)} {ks : List κ}
    (h : ∀ k ∈ ks, chunks' k = chunks k) (w : Host) :
    serveAll os fresh chunks' w ks = serveAll os fresh chunks w ks := by
  induction ks generalizing w with
  | nil => rfl
  | cons k ks ih =>
    unfold serveAll
    rw [List.foldl_cons, List.foldl_cons, sessionOf_congr (h k (List.mem_cons_self ..))]
    exact ih (fun j hj => h j (List.mem_cons_of_mem _ hj)) _

lemma afterAccept_serving {clientSock created : Int} {conn : Option κ} {req req' : List UInt8} {k : κ}
    {n : Nat} (h : afterAccept clientSock created conn req = .serving (some k) n req') :
    (clientSock ≠ 0 ∧ 0 ≤ created) ∧ conn = some k ∧ n = 0 ∧ req' = req := by
  unfold afterAccept at h
  split at h
  · cases h
  · next hs =>
    split at h
    · cases h
    · next hc =>
      cases h
      exact ⟨⟨hs, by omega⟩, rfl, rfl, rfl⟩

variable [DecidableEq κ] {w : Host} {tr : NetHistory κ} {s s' : Listener κ} {e : NetEvent κ}

lemma chunksOf_recv (tr : NetHistory κ) (s : Listener κ) (k : κ) (chunk : List UInt8) :
    chunksOf (tr ++ [(s, .recv k chunk)]) =
      Function.update (chunksOf tr) k (chunksOf tr k ++ [chunk]) := by
  funext j
  unfold chunksOf
  rw [List.filterMap_append]
  by_cases hj : k = j
  · subst hj
    simp
  · rw [Function.update_of_ne (Ne.symm hj)]
    simp [hj]

lemma sentBy_send (tr : NetHistory κ) (s : Listener κ) (k : κ) (bytes : List UInt8) :
    sentBy (tr ++ [(s, .send k bytes)]) =
      Function.update (sentBy tr) k (sentBy tr k ++ bytes) := by
  funext j
  unfold sentBy
  rw [List.flatMap_append]
  by_cases hj : k = j
  · subst hj
    simp
  · rw [Function.update_of_ne (Ne.symm hj)]
    simp [hj]

lemma sentBy_snoc_of_nil (tr : NetHistory κ) {s : Listener κ} {e : NetEvent κ}
    (h : ∀ k, sentBy [(s, e)] k = []) : sentBy (tr ++ [(s, e)]) = sentBy tr := by
  funext k
  rw [sentBy, List.flatMap_append, ← sentBy, ← sentBy, h, List.append_nil]

/-- Events at which no handler does anything. -/
def Idle : NetEvent κ → Prop
  | .accept _ _ _ => False
  | .recv _ _ => False
  | _ => True

lemma Idle.history (hi : Idle e) (tr : NetHistory κ) (s : Listener κ) :
    accepted (tr ++ [(s, e)]) = accepted tr ∧ taken (tr ++ [(s, e)]) = taken tr ∧
      chunksOf (tr ++ [(s, e)]) = chunksOf tr := by
  unfold accepted taken
  cases e with
  | accept => cases hi
  | recv => cases hi
  | _ =>
    simp only [List.filterMap_append]
    refine ⟨List.append_nil _, List.append_nil _, ?_⟩
    funext k
    unfold chunksOf
    rw [List.filterMap_append]
    exact List.append_nil _

lemma init_serial (mem : Nat → UInt8) :
    Serial os fresh (Host.fresh mem) [] (Listener.init mem : Listener κ) where
  fifo := rfl
  once := List.nodup_nil
  known k := by simp [arrived, Listener.init]
  some_taken := List.Sublist.refl _
  host := rfl
  answered before k after h := by simp [accepted] at h
  stream _ := rfl
  unserved _ _ := ⟨rfl, rfl⟩
  current k n req h := by simp [Listener.init] at h

lemma Serial.idle (h : Serial os fresh w tr s) (hi : Idle e) (hhost : s'.host = s.host)
    (hout : s'.outbox = s.outbox)
    (hfifo : arrived (tr ++ [(s, e)]) = taken tr ++ s'.backlog)
    (honce : (arrived (tr ++ [(s, e)])).Nodup)
    (hknown : ∀ k, k ∈ arrived (tr ++ [(s, e)]) ↔ s'.connected k = true)
    (hstream : ∀ k, (chunksOf tr k).flatten ++ s'.inbox k = sentBy (tr ++ [(s, e)]) k)
    (hmain : ∀ k n req, s'.main = .serving (some k) n req → s.main = .serving (some k) n req) :
    Serial os fresh w (tr ++ [(s, e)]) s' := by
  obtain ⟨hacc, htaken, hchunks⟩ := hi.history tr s
  constructor
  · rw [htaken]
    exact hfifo
  · exact honce
  · exact hknown
  · rw [hacc, htaken]
    exact h.some_taken
  · rw [hhost, hacc, hchunks]
    exact h.host
  · rw [hout, hacc, hchunks]
    exact h.answered
  · rw [hchunks]
    exact hstream
  · rw [hout, hacc, hchunks]
    exact h.unserved
  · intro k n req hm
    rw [hacc, hchunks]
    exact h.current k n req (hmain k n req hm)

lemma Serial.nodup (h : Serial os fresh w tr s) : (accepted tr).Nodup := by
  have honce := h.once
  rw [h.fifo] at honce
  exact h.some_taken.nodup (List.nodup_append.mp honce).1

lemma Serial.waiting (h : Serial os fresh w tr s) {k : κ} {rest : List κ} (hb : s.backlog = k :: rest) :
    k ∉ accepted tr := by
  have honce := h.once
  rw [h.fifo, hb] at honce
  intro hk
  exact (List.nodup_append.mp honce).2.2 k (h.some_taken.subset hk) k (List.mem_cons_self ..) rfl

lemma Serial.accept (h : Serial os fresh w tr s) {k : κ} {rest : List κ} {clientSock created : Int}
    (hb : s.backlog = k :: rest) :
    Serial os fresh w (tr ++ [(s, .accept k clientSock created)])
      { s with backlog := rest, main := afterAccept clientSock created (some k) (fresh k) } := by
  have hnew := h.waiting hb
  have hnone := h.unserved k hnew
  have harr : arrived (tr ++ [(s, .accept k clientSock created)]) = arrived tr :=
    arrived_snoc_of_nil tr rfl
  have htaken : taken (tr ++ [(s, .accept k clientSock created)]) = taken tr ++ [k] :=
    taken_snoc _ _ _
  have hchunks : chunksOf (tr ++ [(s, .accept k clientSock created)]) = chunksOf tr := by
    funext j
    unfold chunksOf
    rw [List.filterMap_append]
    exact List.append_nil _
  have hfifo : arrived tr = (taken tr ++ [k]) ++ rest := by
    rw [h.fifo, hb, List.append_assoc]
    rfl
  have hstream : ∀ j, (chunksOf tr j).flatten ++ s.inbox j =
      sentBy (tr ++ [(s, .accept k clientSock created)]) j := by
    rw [sentBy_snoc_of_nil tr (fun _ => rfl)]
    exact h.stream
  -- the handler may not be started: descriptor 0, or `pthread_create` failed
  by_cases hstart : clientSock ≠ 0 ∧ 0 ≤ created
  · have hacc : accepted (tr ++ [(s, .accept k clientSock created)]) = accepted tr ++ [k] := by
      rw [accepted_snoc]
      simp [accepted, hstart.1, hstart.2]
    have hsession : ∀ v, sessionOf os fresh (chunksOf tr) v k = ⟨v, fresh k, [], []⟩ := by
      intro v
      unfold sessionOf
      rw [hnone.1]
      rfl
    constructor
    · rw [harr, htaken]
      exact hfifo
    · rw [harr]
      exact h.once
    · rw [harr]
      exact h.known
    · rw [hacc, htaken]
      exact h.some_taken.append (List.Sublist.refl _)
    · rw [hacc, hchunks, serveAll_snoc, hsession, ← h.host]
    · intro before j after hsplit
      rw [hacc] at hsplit
      rw [hchunks]
      rcases snoc_eq_append_cons hsplit with ⟨rfl, rfl⟩ | ⟨after', hsplit⟩
      · rw [hsession]
        exact hnone.2
      · exact h.answered before j after' hsplit
    · rw [hchunks]
      exact hstream
    · intro j hj
      rw [hacc] at hj
      rw [hchunks]
      exact h.unserved j (fun hm => hj (List.mem_append_left _ hm))
    · intro j n req hm
      obtain ⟨-, hjk, rfl, rfl⟩ := afterAccept_serving hm
      obtain rfl := Option.some.inj hjk
      rw [hchunks]
      refine ⟨accepted tr, hacc, ?_, ?_⟩
      · rw [hnone.1]
        rfl
      · rw [hsession]
  · have hacc : accepted (tr ++ [(s, .accept k clientSock created)]) = accepted tr := by
      rw [accepted_snoc]
      unfold accepted
      simp only [List.filterMap_cons, if_neg hstart, List.filterMap_nil, List.append_nil]
    constructor
    · rw [harr, htaken]
      exact hfifo
    · rw [harr]
      exact h.once
    · rw [harr]
      exact h.known
    · rw [hacc, htaken]
      exact h.some_taken.trans (List.sublist_append_left _ _)
    · rw [hacc, hchunks]
      exact h.host
    · rw [hacc, hchunks]
      exact h.answered
    · rw [hchunks]
      exact hstream
    · rw [hacc, hchunks]
      exact h.unserved
    · intro j n req hm
      exact (hstart (afterAccept_serving hm).1).elim

/-- The handler of connection `k` stands where the main thread says, on the server of the process
and with what the client has been sent. -/
structure AtWork (c : Connection) (s : Listener κ) (k : κ) (n : Nat) (req : List UInt8) : Prop where
  host : c.host = s.host
  sent : c.sent = s.outbox k
  handled : c.handled.length = n
  req : c.req = req

lemma AtWork.iterate {c : Connection} {k : κ} {n : Nat} {req : List UInt8} (h : AtWork c s k n req)
    (os : κ → Nat → Os) (chunk : List UInt8) :
    AtWork (c.iterate (os k) chunk) (s.iterate os k n req chunk) k (n + 1)
        (c.iterate (os k) chunk).req ∧
      (s.iterate os k n req chunk).main = .serving (some k) (n + 1) (c.iterate (os k) chunk).req := by
  obtain ⟨hhost, hsent, rfl, rfl⟩ := h
  unfold Connection.iterate Listener.iterate
  rw [hhost, hsent]
  refine ⟨⟨rfl, ?_, ?_, rfl⟩, rfl⟩
  · exact (Function.update_self (f := s.outbox) k _).symm
  · simp

lemma Serial.serving (h : Serial os fresh w tr s) {k : κ} {n : Nat} {req : List UInt8}
    (hm : s.main = .serving (some k) n req) :
    ∃ before, accepted tr = before ++ [k] ∧ k ∉ before ∧ n = (chunksOf tr k).length ∧
      AtWork (sessionOf os fresh (chunksOf tr) (serveAll os fresh (chunksOf tr) w before) k) s k n
        req := by
  obtain ⟨before, hlast, hn, hreq⟩ := h.current k n req hm
  refine ⟨before, hlast, ?_, hn, ?_, ?_, ?_, hreq.symm⟩
  · have hnodup := h.nodup
    rw [hlast] at hnodup
    intro hb
    exact (List.nodup_append.mp hnodup).2.2 k hb k (List.mem_singleton_self k) rfl
  · rw [h.host, hlast, serveAll_snoc]
  · exact (h.answered before k [] hlast).symm
  · rw [hn, sessionOf, connectionHandler, length_handled]
    exact Nat.zero_add _

lemma sessionOf_recv (tr : NetHistory κ) (s : Listener κ) (k : κ) (chunk : List UInt8) (v : Host) :
    sessionOf os fresh (chunksOf (tr ++ [(s, .recv k chunk)])) v k =
      (sessionOf os fresh (chunksOf tr) v k).iterate (os k) chunk := by
  rw [sessionOf, chunksOf_recv, Function.update_self, connectionHandler_snoc, sessionOf]

lemma serveAll_recv (tr : NetHistory κ) (s : Listener κ) {k : κ} (chunk : List UInt8) (v : Host)
    {ks : List κ} (hks : k ∉ ks) :
    serveAll os fresh (chunksOf (tr ++ [(s, .recv k chunk)])) v ks =
      serveAll os fresh (chunksOf tr) v ks := by
  apply serveAll_congr
  intro j hj
  have hjk : j ≠ k := by
    rintro rfl
    exact hks hj
  rw [chunksOf_recv, Function.update_of_ne hjk]

lemma stream_recv (h : Serial os fresh w tr s) {k : κ} {chunk rest : List UInt8}
    (hi : s.inbox k = chunk ++ rest) (j : κ) :
    (chunksOf (tr ++ [(s, .recv k chunk)]) j).flatten ++ Function.update s.inbox k rest j =
      sentBy (tr ++ [(s, .recv k chunk)]) j := by
  have hold := h.stream j
  rw [sentBy_snoc_of_nil tr (fun _ => rfl), chunksOf_recv]
  by_cases hjk : j = k
  · subst hjk
    rw [hi] at hold
    rw [Function.update_self, Function.update_self, List.flatten_append, List.flatten_singleton,
      List.append_assoc]
    exact hold
  · rw [Function.update_of_ne hjk, Function.update_of_ne hjk]
    exact hold

lemma Serial.recv (h : Serial os fresh w tr s) {k : κ} {n : Nat} {req chunk rest : List UInt8}
    (hm : s.main = .serving (some k) n req) (hi : s.inbox k = chunk ++ rest) :
    Serial os fresh w (tr ++ [(s, .recv k chunk)])
      { s.iterate os k n req chunk with inbox := Function.update s.inbox k rest } := by
  obtain ⟨before, hlast, hk, hn, hc⟩ := h.serving hm
  obtain ⟨hnext, hmain⟩ := hc.iterate os chunk
  have harr : arrived (tr ++ [(s, .recv k chunk)]) = arrived tr := arrived_snoc_of_nil tr rfl
  have htaken : taken (tr ++ [(s, .recv k chunk)]) = taken tr := by
    rw [taken_snoc]
    exact List.append_nil _
  have hacc : accepted (tr ++ [(s, .recv k chunk)]) = accepted tr := by
    rw [accepted_snoc]
    exact List.append_nil _
  have hother : ∀ j, j ≠ k → chunksOf (tr ++ [(s, .recv k chunk)]) j = chunksOf tr j ∧
      (s.iterate os k n req chunk).outbox j = s.outbox j := by
    intro j hj
    rw [chunksOf_recv]
    exact ⟨Function.update_of_ne hj _ _, Function.update_of_ne hj _ _⟩
  constructor
  · rw [harr, htaken]
    exact h.fifo
  · rw [harr]
    exact h.once
  · rw [harr]
    exact h.known
  · rw [hacc, htaken]
    exact h.some_taken
  · rw [hacc, hlast, serveAll_snoc, serveAll_recv tr s chunk w hk, sessionOf_recv]
    exact hnext.host.symm
  · intro b j a hsplit
    rw [hacc, hlast] at hsplit
    rcases snoc_eq_append_cons hsplit with ⟨rfl, rfl⟩ | ⟨a', hsplit⟩
    · rw [serveAll_recv tr s chunk w hk, sessionOf_recv]
      exact hnext.sent.symm
    · have hjb : j ∈ before := by simp [hsplit]
      have hjk : j ≠ k := by
        rintro rfl
        exact hk hjb
      have hkb : k ∉ b := by
        intro hb
        exact hk (by simp [hsplit, hb])
      rw [serveAll_recv tr s chunk w hkb, sessionOf_congr (hother j hjk).1]
      refine (hother j hjk).2.trans (h.answered b j (a' ++ [k]) ?_)
      rw [hlast, hsplit, List.append_assoc, List.cons_append]
  · exact stream_recv h hi
  · intro j hj
    rw [hacc] at hj
    have hjk : j ≠ k := by
      rintro rfl
      exact hj (hlast ▸ List.mem_append_right _ (List.mem_singleton_self j))
    rw [(hother j hjk).1]
    exact ⟨(h.unserved j hj).1, (hother j hjk).2.trans (h.unserved j hj).2⟩
  · intro j m req' hserving
    obtain ⟨hj, rfl, rfl⟩ := MainState.serving.inj (hmain.symm.trans hserving)
    obtain rfl := Option.some.inj hj
    refine ⟨before, hacc.trans hlast, ?_, ?_⟩
    · rw [chunksOf_recv, Function.update_self, List.length_append, hn]
      rfl
    · rw [serveAll_recv tr s chunk w hk, sessionOf_recv]

lemma serial_step (h : Serial os fresh w tr s) (hs : Listener.Step os fresh s e s') :
    Serial os fresh w (tr ++ [(s, e)]) s' := by
  cases hs with
  | @connect k hk =>
    have hnew : k ∉ arrived tr := by
      rw [h.known k, hk]
      decide
    have harr : arrived (tr ++ [(s, .connect k)]) = arrived tr ++ [k] := arrived_snoc _ _ _
    apply h.idle
    · trivial
    · rfl
    · rfl
    · rw [harr, h.fifo, List.append_assoc]
    · rw [harr]
      refine List.nodup_append.mpr ⟨h.once, by simp, ?_⟩
      intro a ha b hb
      rw [List.mem_singleton.mp hb]
      rintro rfl
      exact hnew ha
    · intro j
      rw [harr, List.mem_append, List.mem_singleton, h.known j]
      by_cases hjk : j = k
      · simp [hjk]
      · simp [hjk]
    · rw [sentBy_snoc_of_nil tr (fun _ => rfl)]
      exact h.stream
    · exact fun _ _ _ hm => hm
  | @send k bytes hk ho =>
    apply h.idle
    · trivial
    · rfl
    · rfl
    · rw [arrived_snoc_of_nil tr rfl]
      exact h.fifo
    · rw [arrived_snoc_of_nil tr rfl]
      exact h.once
    · rw [arrived_snoc_of_nil tr rfl]
      exact h.known
    · intro j
      rw [sentBy_send]
      change _ ++ Function.update s.inbox k (s.inbox k ++ bytes) j = _
      by_cases hjk : j = k
      · subst hjk
        rw [Function.update_self, Function.update_self, ← List.append_assoc, h.stream]
      · rw [Function.update_of_ne hjk, Function.update_of_ne hjk]
        exact h.stream j
    · exact fun _ _ _ hm => hm
  | accept hm hb _ _ => exact h.accept hb
  | recv hm hi _ _ _ => exact h.recv hm hi
  | _ =>
    apply h.idle
    · trivial
    · rfl
    · rfl
    · rw [arrived_snoc_of_nil tr rfl]
      exact h.fifo
    · rw [arrived_snoc_of_nil tr rfl]
      exact h.once
    · rw [arrived_snoc_of_nil tr rfl]
      exact h.known
    · rw [sentBy_snoc_of_nil tr (fun _ => rfl)]
      exact h.stream
    · intro k n req hm
      first
        | exact hm
        | cases hm
        | exact absurd (afterAccept_serving hm).2.1 (by simp)

/-- Whatever the clients do and in whatever order, the connections are served one after another, in
the order they arrived. -/
theorem connections_served_in_turn {mem : Nat → UInt8}
    (hr : Run (Listener.Step os fresh) (Listener.init mem) tr s) :
    Serial os fresh (Host.fresh mem) tr s :=
  hr.history_invariant (C := fun _ _ _ => True) (fun _ _ _ _ h _ hs => serial_step h hs)
    (init_serial mem) (fun _ _ _ => trivial)

/-! ### One page store for all connections -/

/-- The call of `rmp::Server::handle` a step makes. -/
def callOf (os : κ → Nat → Os) (x : Listener κ × NetEvent κ) : Option (Host × Call) :=
  match x.2, x.1.main with
  | .recv k chunk, .serving _ n req =>
    let packet := Packet.ofBytes (RemoteMemoryPool.received req chunk)
    some (x.1.host, ⟨os k n, packet, (x.1.host.handle (os k n) packet).1⟩)
  | _, _ => none

def callsOf (os : κ → Nat → Os) (tr : NetHistory κ) : List (Host × Call) := tr.filterMap (callOf os)

def allChunks (tr : NetHistory κ) : List (List UInt8) :=
  tr.filterMap (fun x => match x.2 with
    | .recv _ chunk => some chunk
    | _ => none)

omit [DecidableEq κ] in
lemma allChunks_eq_of_events {tr tr' : NetHistory κ} (h : tr.map Prod.snd = tr'.map Prod.snd) :
    allChunks tr = allChunks tr' := by
  induction tr generalizing tr' with
  | nil => rw [List.map_eq_nil_iff.mp h.symm]
  | cons x tr ih =>
    obtain ⟨x', t', rfl, hx, ht⟩ := List.map_eq_cons_iff.mp h.symm
    have htail := ih ht.symm
    unfold allChunks at htail ⊢
    rw [List.filterMap_cons, List.filterMap_cons, htail, hx]

lemma step_call (hs : Listener.Step os fresh s e s') :
    (callOf os (s, e) = none ∧ allChunks [(s, e)] = [] ∧ s'.host = s.host) ∨
      ∃ k n req chunk, s.main = .serving (some k) n req ∧ chunk.length ≤ sizeofPacket ∧
        allChunks [(s, e)] = [chunk] ∧
        ∃ c, callOf os (s, e) = some (s.host, c) ∧
          c.packet = Packet.ofBytes (RemoteMemoryPool.received req chunk) ∧
          Host.Step s.host c s'.host := by
  cases hs with
  | @recv k n req chunk rest hm hi hpos hle hos =>
    right
    refine ⟨k, n, req, chunk, hm, hle, rfl,
      ⟨os k n, Packet.ofBytes (RemoteMemoryPool.received req chunk),
        (s.host.handle (os k n) (Packet.ofBytes (RemoteMemoryPool.received req chunk))).1⟩,
      ?_, rfl, hos, rfl⟩
    simp only [callOf, hm]
  | _ => exact Or.inl ⟨rfl, rfl, rfl⟩

lemma run_calls {s₀ : Listener κ} (hr : Run (Listener.Step os fresh) s₀ tr s) :
    Run Host.Step s₀.host (callsOf os tr) s.host := by
  induction hr with
  | nil => exact Run.nil
  | @snoc t u tr e hr hs ih =>
    rw [callsOf, List.filterMap_append, ← callsOf]
    rcases step_call hs with ⟨hnone, -, hhost⟩ | ⟨k, n, req, chunk, -, -, -, c, hsome, -, hstep⟩
    · rw [hhost, List.filterMap_cons, hnone, List.filterMap_nil, List.append_nil]
      exact ih
    · rw [List.filterMap_cons, hsome, List.filterMap_nil]
      exact ih.snoc hstep

/-- The request object always has the size of a packet. -/
def ObjectSized (s : Listener κ) : Prop :=
  ∀ k n req, s.main = .serving (some k) n req → req.length = sizeofPacket

lemma length_received {req chunk : List UInt8} (hreq : req.length = sizeofPacket)
    (hle : chunk.length ≤ sizeofPacket) :
    (RemoteMemoryPool.received req chunk).length = sizeofPacket := by
  rw [RemoteMemoryPool.received, List.length_append, List.length_drop]
  omega

lemma objectSized_step (hfresh : ∀ k, (fresh k).length = sizeofPacket) (h : ObjectSized s)
    (hs : Listener.Step os fresh s e s') : ObjectSized s' := by
  intro k n req hm
  cases hs with
  | accept =>
    obtain ⟨-, -, -, rfl⟩ := afterAccept_serving hm
    exact hfresh _
  | acceptFailed => exact absurd (afterAccept_serving hm).2.1 (by simp)
  | @recv k' n' req' chunk rest hm' _ _ hle _ =>
    obtain ⟨-, -, rfl⟩ := MainState.serving.inj hm
    exact length_handleBytes _ _ _ (length_received (h k' n' req' hm') hle)
  | disconnected => cases hm
  | recvFailed => cases hm
  | killed => cases hm
  | _ => exact h k n req hm

lemma objectSized_run {mem : Nat → UInt8} (hfresh : ∀ k, (fresh k).length = sizeofPacket)
    (hr : Run (Listener.Step os fresh) (Listener.init mem) tr s) : ObjectSized s := by
  induction hr with
  | nil => exact fun k n req hm => by simp [Listener.init] at hm
  | snoc _ hs ih => exact objectSized_step hfresh ih hs

/-- When every `recv` returns a whole packet object, the calls are made on the packets that were
sent. -/
lemma calls_packets {mem : Nat → UInt8} (hfresh : ∀ k, (fresh k).length = sizeofPacket)
    (hr : Run (Listener.Step os fresh) (Listener.init mem) tr s)
    (hwhole : ∀ chunk ∈ allChunks tr, chunk.length = sizeofPacket) :
    (callsOf os tr).map (fun x => x.2.packet) = (allChunks tr).map Packet.ofBytes := by
  induction hr with
  | nil => rfl
  | @snoc t u tr e hr hs ih =>
    rw [allChunks, List.filterMap_append, ← allChunks, List.forall_mem_append] at hwhole
    rw [callsOf, allChunks, List.filterMap_append, List.filterMap_append, ← callsOf, ← allChunks,
      List.map_append, List.map_append, ih hwhole.1]
    congr 1
    change (callsOf os [(t, e)]).map _ = (allChunks [(t, e)]).map _
    rcases step_call hs with ⟨hnone, hchunk, -⟩ | ⟨k, n, req, chunk, hm, -, hchunk, c, hsome, hpkt, -⟩
    · rw [hchunk, callsOf, List.filterMap_cons, hnone]
      rfl
    · have hlen : chunk.length = sizeofPacket := hwhole.2 chunk (by
        change chunk ∈ allChunks [(t, e)]
        rw [hchunk]
        exact List.mem_singleton_self chunk)
      have hsized := objectSized_run hfresh hr k n req hm
      rw [hchunk, callsOf, List.filterMap_cons, hsome, List.filterMap_nil, List.map_singleton,
        List.map_singleton, hpkt, received_whole req chunk (hsized.trans hlen.symm)]

/-- When every `recv` returns a whole packet object that carries the page size, allocations are for
fewer than `2 ^ 20` pages and there are fewer than `2 ^ 32` of them, the requests of all connections
together are answered as by one page store. If only `alloc` requests carry a stale error field, a
read returns what was last written to its page, over whichever connection, also one that has been
closed since. -/
theorem connections_share_pages {mem : Nat → UInt8} (hfresh : ∀ k, (fresh k).length = sizeofPacket)
    (hr : Run (Listener.Step os fresh) (Listener.init mem) tr s)
    (hwhole : ∀ chunk ∈ allChunks tr, chunk.length = sizeofPacket)
    (hpkt : ∀ p ∈ (allChunks tr).map Packet.ofBytes,
      p.size = 4096 ∧ (p.action = 0 → p.npages.toNat < 2 ^ 20))
    (hcount : ((allChunks tr).map Packet.ofBytes).countP (fun p => p.action = 0) < 2 ^ 32) :
    (callsOf os tr).map (fun x => x.2.packet) = (allChunks tr).map Packet.ofBytes ∧
      (∃ tr' st, Run PageStore.Step (fun _ => none) tr' st ∧
        tr'.map Prod.snd = (callsOf os tr).map Prod.snd ∧ Refines s.host st) ∧
      ((∀ p ∈ (allChunks tr).map Packet.ofBytes, p.action ≠ 0 → p.error = 0) →
        ReadsLatest ((callsOf os tr).map Prod.snd)) := by
  have heq := calls_packets hfresh hr hwhole
  have hrun : Run Host.Step (Host.fresh mem) (callsOf os tr) s.host := run_calls hr
  have hless : (callsOf os tr).countP (fun x => x.2.packet.action = 0) < 2 ^ 32 := by
    rw [← heq, List.countP_map] at hcount
    exact hcount
  rw [← heq, List.forall_mem_map] at hpkt
  have hbounds : ∀ x ∈ callsOf os tr, WithinBounds x.1 x.2 := by
    intro x hx
    obtain ⟨hsize, hsmall⟩ := hpkt x hx
    exact ⟨hsize, fun h0 => ⟨hsmall h0, run_handleCount_lt hrun hless x hx h0⟩⟩
  obtain ⟨⟨tr', st, hst, hlab, hR⟩, hnew⟩ := run_page_store hrun hbounds
  refine ⟨heq, ⟨tr', st, hst, hlab, hR⟩, ?_⟩
  intro herror
  rw [← heq, List.forall_mem_map] at herror
  rw [← hlab] at hnew ⊢
  refine (page_store_reads_latest hst ?_ hnew).2
  rw [hlab, List.forall_mem_map]
  exact herror

/-! ### Failed calls of `accept` -/

/-- The handler of a failed `accept` counts as waiting in `accept`. -/
def calmMain : MainState κ → MainState κ
  | .serving none _ _ => .accepting
  | m => m

def calm (s : Listener κ) : Listener κ := { s with main := calmMain s.main }

/-- A failed `accept`, or the end of its handler. -/
def vain (x : Listener κ × NetEvent κ) : Bool :=
  match x.2, x.1.main with
  | .acceptFailed _ _, _ => true
  | .recvEnd _, .serving none _ _ => true
  | _, _ => false

/-- `pthread_create` does not fail. -/
def Started : NetEvent κ → Prop
  | .acceptFailed _ created => created = 0
  | .accept _ _ created => created = 0
  | _ => True

omit [DecidableEq κ] in
lemma calm_of_main {m : MainState κ} (hm : s.main = m) (hc : calmMain m = m) : calm s = s := by
  unfold calm
  rw [hm, hc, ← hm]

lemma calm_step (hst : Started e) (hs : Listener.Step os fresh s e s') :
    (vain (s, e) = true ∧ calm s' = calm s) ∨
      (vain (s, e) = false ∧ Listener.Step os fresh (calm s) e (calm s')) := by
  cases hs with
  | connect hk => exact Or.inr ⟨rfl, Listener.Step.connect (s := calm s) hk⟩
  | send hk ho => exact Or.inr ⟨rfl, Listener.Step.send (s := calm s) hk ho⟩
  | close hk => exact Or.inr ⟨rfl, Listener.Step.close (s := calm s) hk⟩
  | @acceptFailed clientSock created hm hneg hc =>
    obtain rfl : created = 0 := hst
    refine Or.inl ⟨rfl, ?_⟩
    have hafter : afterAccept clientSock 0 (none : Option κ) [] = .serving none 0 [] := by
      unfold afterAccept
      rw [if_neg (by omega), if_neg (by omega)]
    unfold calm
    rw [hafter, hm]
    rfl
  | @accept k rest clientSock created hm hb hpos hc =>
    right
    have hafter : calmMain (afterAccept clientSock created (some k) (fresh k)) =
        afterAccept clientSock created (some k) (fresh k) := by
      unfold afterAccept
      split
      · rfl
      split <;> rfl
    rw [calm_of_main hm rfl, calm_of_main rfl hafter]
    exact ⟨rfl, Listener.Step.accept hm hb hpos hc⟩
  | @recv k handled req chunk rest hm hi hpos hle hos =>
    right
    rw [calm_of_main hm rfl, calm_of_main rfl rfl]
    exact ⟨rfl, Listener.Step.recv hm hi hpos hle hos⟩
  | disconnected hm hi hc =>
    right
    rw [calm_of_main hm rfl, calm_of_main rfl rfl]
    exact ⟨by simp only [vain, hm], Listener.Step.disconnected hm hi hc⟩
  | @recvFailed conn handled req hm =>
    cases conn with
    | none =>
      refine Or.inl ⟨by simp only [vain, hm], ?_⟩
      unfold calm
      rw [hm]
      rfl
    | some k =>
      right
      rw [calm_of_main hm rfl, calm_of_main rfl rfl]
      exact ⟨by simp only [vain, hm], Listener.Step.recvFailed hm⟩
  | killed hm hi hpos hle hos hfatal =>
    right
    rw [calm_of_main hm rfl, calm_of_main rfl rfl]
    exact ⟨rfl, Listener.Step.killed hm hi hpos hle hos hfatal⟩

/-- The steps of a run other than failed calls of `accept` and the ends of their handlers. -/
def useful (tr : NetHistory κ) : NetHistory κ :=
  (tr.filter (fun x => !vain x)).map (fun x => (calm x.1, x.2))

lemma returned_step {status : Int} (hst : Started e) (hs : Listener.Step os fresh s e s')
    (hret : s'.main = .returned status) :
    s.main = .returned status ∨ (status = 0 ∧ ∃ k, e = .accept k 0 0) := by
  cases hs with
  | @acceptFailed clientSock created hm hneg hc =>
    obtain rfl : created = 0 := hst
    have hafter : afterAccept clientSock 0 (none : Option κ) [] = .returned status := hret
    unfold afterAccept at hafter
    rw [if_neg (by omega), if_neg (by omega)] at hafter
    cases hafter
  | @accept k rest clientSock created hm hb hpos hc =>
    obtain rfl : created = 0 := hst
    have hafter : afterAccept clientSock 0 (some k) (fresh k) = .returned status := hret
    unfold afterAccept at hafter
    by_cases hz : clientSock = 0
    · subst hz
      rw [if_pos rfl, if_neg (by omega)] at hafter
      exact Or.inr ⟨(MainState.returned.inj hafter).symm, k, rfl⟩
    · rw [if_neg hz, if_neg (by omega)] at hafter
      cases hafter
  | recv => cases hret
  | disconnected => cases hret
  | recvFailed => cases hret
  | killed => cases hret
  | _ => exact Or.inl hret

/-- As long as threads can be created, failed calls of `accept` change nothing: without them and
the handlers started for them the run is a run of the same server to the same state, and `main`
returns only with status 0, after `accept` returned descriptor 0. -/
theorem failed_accepts_ignored {mem : Nat → UInt8}
    (hr : Run (Listener.Step os fresh) (Listener.init mem) tr s) (hst : ∀ x ∈ tr, Started x.2) :
    Run (Listener.Step os fresh) (Listener.init mem) (useful tr) (calm s) ∧
      ∀ status, s.main = .returned status → status = 0 ∧ ∃ x ∈ tr, ∃ k, x.2 = .accept k 0 0 := by
  induction hr with
  | nil => exact ⟨Run.nil, fun status h => by simp [Listener.init] at h⟩
  | @snoc t u tr e hr hs ih =>
    rw [forall_mem_snoc] at hst
    obtain ⟨hrun, hret⟩ := ih hst.1
    constructor
    · unfold useful at hrun ⊢
      rw [List.filter_append, List.map_append]
      rcases calm_step hst.2 hs with ⟨hv, hcalm⟩ | ⟨hv, hstep⟩
      · rw [List.filter_cons, hv, hcalm]
        simpa using hrun
      · rw [List.filter_cons, hv]
        exact hrun.snoc hstep
    · intro status hmain
      rcases returned_step hst.2 hs hmain with hmain | ⟨h0, k, hk⟩
      · obtain ⟨h0, x, hx, hk⟩ := hret status hmain
        exact ⟨h0, x, List.mem_append_left _ hx, hk⟩
      · exact ⟨h0, (t, e), by simp, k, hk⟩

/-- The requests of the clients: one page, a write to it, and a read of it. -/
def askPage : Packet := ⟨0, 1, 4096, 0, 0, zeroPage, 0⟩
def fillPage : Packet := ⟨0, 0, 4096, 0, 2, fun _ => 7, 0⟩
def lookAtPage : Packet := ⟨0, 0, 4096, 0, 1, zeroPage, 0⟩

def requestBytes (p : Packet) : List UInt8 := p.toBytes [0, 0, 0, 0]

/-- The kernel maps the page at 4096. -/
def clientsOs : Bool → Nat → Os := fun _ _ => ⟨some 4096, true⟩

def clientsFresh : Bool → List UInt8 := fun _ => zeroRequest

abbrev ClientsRun (tr : NetHistory Bool) (s : Listener Bool) : Prop :=
  Run (Listener.Step clientsOs clientsFresh) (Listener.init fun _ => 0) tr s

section Requests

variable {tr : NetHistory Bool} {s : Listener Bool} {k : Bool} {n : Nat} {bytes : List UInt8}

lemma length_requestBytes (p : Packet) : (requestBytes p).length = sizeofPacket :=
  length_object p rfl

lemma ofBytes_requestBytes {p : Packet} (hp : IsLong p.hndl) :
    Packet.ofBytes (requestBytes p) = p :=
  ofBytes_toBytes hp _

/-- Connection `k` is being served, and all that was sent has been received. -/
structure Attending (s : Listener Bool) (k : Bool) (n : Nat) : Prop where
  main : ∃ req, s.main = .serving (some k) n req
  connected : s.connected = fun _ => true
  inbox : s.inbox = fun _ => []

lemma Attending.send (h : Attending s k n) (hr : ClientsRun tr s) (hopen : s.closed k = false)
    (hlen : bytes.length = sizeofPacket) :
    ∃ req, ClientsRun (tr ++ [(s, .send k bytes)])
        { s with inbox := Function.update s.inbox k (s.inbox k ++ bytes) } ∧
      s.main = .serving (some k) n req ∧
      Function.update s.inbox k (s.inbox k ++ bytes) k = bytes ++ [] ∧
      RemoteMemoryPool.received req bytes = bytes := by
  obtain ⟨req, hm⟩ := h.main
  refine ⟨req, hr.snoc (.send (congrFun h.connected k) hopen), hm, ?_, ?_⟩
  · rw [Function.update_self, h.inbox, List.nil_append, List.append_nil]
  · have hreq := objectSized_run (fun _ => List.length_replicate) hr k n req hm
    exact received_whole _ _ (hreq.trans hlen.symm)

lemma Attending.exchange (h : Attending s k n) (hr : ClientsRun tr s) (hopen : s.closed k = false)
    (hlen : bytes.length = sizeofPacket)
    (hos : (clientsOs k n).Admissible s.host (Packet.ofBytes bytes)) :
    ∃ s₁ s₂, ClientsRun (tr ++ [(s, .send k bytes), (s₁, .recv k bytes)]) s₂ ∧
      Attending s₂ k (n + 1) ∧ s₂.closed = s.closed ∧ s₂.backlog = s.backlog := by
  obtain ⟨req, hsend, hm, hi, hreceived⟩ := h.send hr hopen hlen
  have hrecv := hsend.snoc (.recv hm hi (hlen ▸ by decide) hlen.le (hreceived.symm ▸ hos))
  rw [List.append_assoc] at hrecv
  refine ⟨_, _, hrecv, ⟨⟨_, rfl⟩, h.connected, ?_⟩, rfl, rfl⟩
  funext j
  change Function.update (Function.update s.inbox k _) k [] j = []
  rw [h.inbox]
  by_cases hj : j = k
  · rw [hj, Function.update_self]
  · rw [Function.update_of_ne hj, Function.update_of_ne hj]

lemma Attending.handOver {j : Bool} (h : Attending s k n) (hr : ClientsRun tr s)
    (hback : s.backlog = [j]) (hopen : s.closed j = false) (hj : j ≠ k) :
    ∃ s₁ s₂ s', ClientsRun (tr ++ [(s, .close k), (s₁, .recvEnd 0), (s₂, .accept j 4 0)]) s' ∧
      Attending s' j 0 ∧ s'.closed j = false := by
  obtain ⟨req, hm⟩ := h.main
  have hclose := hr.snoc (.close (congrFun h.connected k))
  have hend := hclose.snoc
    (.disconnected hm (congrFun h.inbox k) (Function.update_self k true s.closed))
  have haccept := hend.snoc
    (.accept rfl hback (by decide : (0 : Int) ≤ 4) (by decide : (0 : Int) ≤ 0))
  rw [List.append_assoc, List.append_assoc] at haccept
  refine ⟨_, _, _, haccept, ⟨⟨_, rfl⟩, h.connected, h.inbox⟩, ?_⟩
  change Function.update s.closed k true j = false
  rw [Function.update_of_ne hj, hopen]

lemma Attending.abandon (h : Attending s k n) (hr : ClientsRun tr s) (hopen : s.closed k = false)
    (hlen : bytes.length = sizeofPacket)
    (hos : (clientsOs k n).Admissible s.host (Packet.ofBytes bytes)) :
    ∃ s₁ s₂ s', ClientsRun
        (tr ++ [(s, .send k bytes), (s₁, .close k), (s₂, .killed k bytes)]) s' ∧
      s'.main = .killed := by
  obtain ⟨req, hsend, hm, hi, hreceived⟩ := h.send hr hopen hlen
  have hclose := hsend.snoc (.close (congrFun h.connected k))
  have hkilled := hclose.snoc (.killed hm hi (hlen ▸ by decide) hlen.le (hreceived.symm ▸ hos)
    (Or.inl (Function.update_self k true s.closed)))
  rw [List.append_assoc, List.append_assoc] at hkilled
  exact ⟨_, _, _, hkilled, rfl⟩

lemma clients_connect : ∃ tr s, ClientsRun tr s ∧ Attending s false 0 ∧
    s.host = Host.fresh (fun _ => 0) ∧ s.closed = (fun _ => false) ∧ s.backlog = [true] ∧
    tr.map Prod.snd = [.connect false, .acceptFailed (-1) 0, .connect true, .recvEnd (-1),
      .accept false 4 0] := by
  have h₁ : ClientsRun _ _ := Run.nil.snoc (.connect (k := false) rfl)
  have h₂ := h₁.snoc (.acceptFailed rfl (by decide : (-1 : Int) < 0) (by decide : (0 : Int) ≤ 0))
  have h₃ := h₂.snoc (.connect (k := true) rfl)
  have h₄ := h₃.snoc (.recvFailed rfl)
  have h₅ := h₄.snoc (.accept rfl rfl (by decide : (0 : Int) ≤ 4) (by decide : (0 : Int) ≤ 0))
  refine ⟨_, _, h₅, ⟨⟨_, rfl⟩, ?_, rfl⟩, rfl, rfl, rfl, rfl⟩
  funext k
  cases k <;> rfl

def clientsEvents : List (NetEvent Bool) :=
  [.connect false, .acceptFailed (-1) 0, .connect true, .recvEnd (-1), .accept false 4 0,
    .send false (requestBytes askPage), .recv false (requestBytes askPage),
    .send false (requestBytes fillPage), .recv false (requestBytes fillPage),
    .close false, .recvEnd 0, .accept true 4 0,
    .send true (requestBytes lookAtPage), .recv true (requestBytes lookAtPage),
    .send true (requestBytes lookAtPage), .close true, .killed true (requestBytes lookAtPage)]

/-- The first client fills a page and leaves, the second one reads it. It asks once more and leaves
before it is answered, which ends the process. -/
lemma clients_run :
    ∃ tr s, ClientsRun tr s ∧ s.main = .killed ∧ tr.map Prod.snd = clientsEvents := by
  obtain ⟨tr, s, hr, hs, hhost, hclosed, hback, hev⟩ := clients_connect
  have hask : (clientsOs false 0).Admissible s.host (Packet.ofBytes (requestBytes askPage)) := by
    rw [hhost]
    exact fun _ => fresh_mmapAnswer _ (UInt32.toNat_lt _)
  have hquiet : ∀ {k n} {w : Host} {p : Packet}, p.action ≠ 0 → IsLong p.hndl →
      (clientsOs k n).Admissible w (Packet.ofBytes (requestBytes p)) := by
    intro k n w p h0 hp h
    rw [ofBytes_requestBytes hp] at h
    exact absurd h h0
  obtain ⟨s₁, s₂, hr₂, hs₂, hclosed₂, hback₂⟩ := hs.exchange hr (by rw [hclosed])
    (length_requestBytes askPage) hask
  obtain ⟨s₃, s₄, hr₄, hs₄, hclosed₄, hback₄⟩ := hs₂.exchange hr₂ (by rw [hclosed₂, hclosed])
    (length_requestBytes fillPage) (hquiet (by decide) (by decide))
  obtain ⟨s₅, s₆, s₇, hr₇, hs₇, hopen₇⟩ := hs₄.handOver (j := true) hr₄
    (by rw [hback₄, hback₂, hback]) (by rw [hclosed₄, hclosed₂, hclosed]) (by decide)
  obtain ⟨s₈, s₉, hr₉, hs₉, hclosed₉, -⟩ := hs₇.exchange hr₇ hopen₇
    (length_requestBytes lookAtPage) (hquiet (by decide) (by decide))
  obtain ⟨u, u', s', hr', hkilled⟩ := hs₉.abandon hr₉ (by rw [hclosed₉, hopen₇])
    (length_requestBytes lookAtPage) (hquiet (by decide) (by decide))
  refine ⟨_, _, hr', hkilled, ?_⟩
  simp only [List.map_append, List.map_cons, List.map_nil, hev]
  rfl

lemma allChunks_clientsEvents (s : Listener Bool) (h : tr.map Prod.snd = clientsEvents) :
    allChunks tr = [requestBytes askPage, requestBytes fillPage, requestBytes lookAtPage] := by
  have hevents : tr.map Prod.snd = (clientsEvents.map (fun e => (s, e))).map Prod.snd := h
  exact allChunks_eq_of_events hevents

end Requests

theorem clients_served_in_turn : ∃ tr s, ClientsRun tr s ∧ s.main = .killed ∧
    tr.map Prod.snd = clientsEvents ∧
    Serial clientsOs clientsFresh (Host.fresh fun _ => 0) tr s := by
  obtain ⟨tr, s, hr, hkilled, hev⟩ := clients_run
  exact ⟨tr, s, hr, hkilled, hev, connections_served_in_turn hr⟩

theorem clients_share_pages : ∃ tr s, ClientsRun tr s ∧ tr.map Prod.snd = clientsEvents ∧
    (callsOf clientsOs tr).map (fun x => x.2.packet) = [askPage, fillPage, lookAtPage] ∧
    ReadsLatest ((callsOf clientsOs tr).map Prod.snd) := by
  obtain ⟨tr, s, hr, -, hev⟩ := clients_run
  have hall := allChunks_clientsEvents s hev
  have hpkt : (allChunks tr).map Packet.ofBytes = [askPage, fillPage, lookAtPage] := by
    rw [hall, List.map_cons, List.map_cons, List.map_singleton, ofBytes_requestBytes (by decide),
      ofBytes_requestBytes (by decide), ofBytes_requestBytes (by decide)]
  have h := connections_share_pages (fun _ => List.length_replicate) hr
    (by rw [hall]; simp [length_requestBytes])
    (by rw [hpkt]; simp [askPage, fillPage, lookAtPage])
    (by rw [hpkt]; simp [askPage, fillPage, lookAtPage])
  refine ⟨tr, s, hr, hev, h.1.trans hpkt, h.2.2 ?_⟩
  rw [hpkt]
  simp [askPage, fillPage, lookAtPage]

theorem clients_ignore_failed_accept : ∃ tr s, ClientsRun tr s ∧
    tr.map Prod.snd = clientsEvents ∧ ClientsRun (useful tr) (calm s) := by
  obtain ⟨tr, s, hr, -, hev⟩ := clients_run
  have hstarted : ∀ x ∈ tr, Started x.2 := by
    intro x hx
    have hmem : x.2 ∈ clientsEvents := hev ▸ List.mem_map_of_mem hx
    revert hmem
    generalize x.2 = e
    intro hmem
    simp only [clientsEvents, List.mem_cons, List.not_mem_nil, or_false] at hmem
    rcases hmem with rfl | rfl | rfl | rfl | rfl | rfl | rfl | rfl | rfl | rfl | rfl | rfl | rfl |
      rfl | rfl | rfl | rfl <;> trivial
  exact ⟨tr, s, hr, hev, (failed_accepts_ignored hr hstarted).1⟩

end RemoteMemoryPool.Proofs
