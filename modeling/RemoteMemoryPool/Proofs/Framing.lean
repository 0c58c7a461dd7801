import RemoteMemoryPool.Model.Connection

/-!
# Framing of the request stream

The stream a client sends is a concatenation of packet objects; `recv` delivers it in
chunks. `framing_iff` says that the handler sees the packets that were sent exactly when
every chunk is a whole packet object.
-/

namespace RemoteMemoryPool.Proofs

@[simp] lemma length_leBytes (k n : Nat) : (leBytes k n).length = k := by
  induction k generalizing n with
  | zero => rfl
  | succ k ih => simp [leBytes, ih]

lemma length_toBytes (p : Packet) (padding : List UInt8) :
    (p.toBytes padding).length = 4124 + padding.length := by
  simp only [Packet.toBytes, List.length_append, length_leBytes, List.length_ofFn]

lemma length_handleBytes (os : Os) (w : Host) (req : List UInt8)
    (h : req.length = sizeofPacket) : (handleBytes os w req).1.length = sizeofPacket := by
  have hp : (paddingOf req).length = 4 := by
    rw [paddingOf, List.length_drop, h]
    rfl
  change (Packet.toBytes _ (paddingOf req)).length = _
  rw [length_toBytes, hp]
  rfl

lemma length_handled (os : Nat → Os) (chunks : List (List UInt8)) (c : Connection) :
    (chunks.foldl (Connection.iterate os) c).handled.length = c.handled.length + chunks.length := by
  induction chunks generalizing c with
  | nil => rfl
  | cons chunk chunks ih =>
    rw [List.foldl_cons, ih, List.length_cons, Connection.iterate]
    simp only [List.length_append, List.length_singleton]
    omega

lemma received_whole (req chunk : List UInt8) (h : req.length = chunk.length) :
    received req chunk = chunk := by
  rw [received, ← h, List.drop_length, List.append_nil]

/-- When every chunk is a whole packet object, the handler handles the chunks one by one. -/
lemma foldl_iterate_whole (os : Nat → Os) (chunks : List (List UInt8)) (c : Connection)
    (hreq : c.req.length = sizeofPacket) (hc : ∀ chunk ∈ chunks, chunk.length = sizeofPacket) :
    let d := chunks.foldl (Connection.iterate os) c
    d.handled = c.handled ++ chunks ∧
      (d.sent, d.host) =
        (c.sent ++ (handleOneByOne os c.host c.handled.length chunks).1,
          (handleOneByOne os c.host c.handled.length chunks).2) := by
  dsimp only
  induction chunks generalizing c with
  | nil => simp [handleOneByOne]
  | cons chunk chunks ih =>
    have hchunk : chunk.length = sizeofPacket := hc chunk (List.mem_cons_self ..)
    have hwhole : received c.req chunk = chunk := received_whole _ _ (hreq.trans hchunk.symm)
    have hi := ih (c.iterate os chunk) (length_handleBytes _ _ _ (by rw [hwhole, hchunk]))
      (fun x hx => hc x (List.mem_cons_of_mem _ hx))
    rw [List.foldl_cons, hi.1, hi.2]
    simp [Connection.iterate, hwhole, handleOneByOne]

lemma sum_length_le {n : Nat} (l : List (List UInt8)) (h : ∀ c ∈ l, c.length ≤ n) :
    l.flatten.length ≤ n * l.length := by
  induction l with
  | nil => simp
  | cons c l ih =>
    have hc := h c (List.mem_cons_self ..)
    have hl := ih (fun x hx => h x (List.mem_cons_of_mem _ hx))
    rw [List.flatten_cons, List.length_append, List.length_cons, Nat.mul_succ]
    omega

lemma length_flatten_of_length {n : Nat} (l : List (List UInt8)) (h : ∀ c ∈ l, c.length = n) :
    l.flatten.length = n * l.length := by
  induction l with
  | nil => simp
  | cons c l ih =>
    rw [List.flatten_cons, List.length_append, List.length_cons, Nat.mul_succ,
      h c (List.mem_cons_self ..), ih (fun x hx => h x (List.mem_cons_of_mem _ hx)), Nat.add_comm]

lemma length_eq_of_full {n : Nat} (l : List (List UInt8)) (h : ∀ c ∈ l, c.length ≤ n)
    (hf : l.flatten.length = n * l.length) : ∀ c ∈ l, c.length = n := by
  induction l with
  | nil => simp
  | cons c l ih =>
    have hc := h c (List.mem_cons_self ..)
    have ht : ∀ x ∈ l, x.length ≤ n := fun x hx => h x (List.mem_cons_of_mem _ hx)
    have hl := sum_length_le l ht
    rw [List.flatten_cons, List.length_append, List.length_cons, Nat.mul_succ] at hf
    intro x hx
    rcases List.mem_cons.mp hx with rfl | hx
    · omega
    · exact ih ht (by omega) x hx

lemma eq_of_flatten_eq {n : Nat} (hn : 0 < n) (l m : List (List UInt8))
    (hl : ∀ c ∈ l, c.length = n) (hm : ∀ c ∈ m, c.length = n) (h : l.flatten = m.flatten) :
    l = m := by
  have hlen : l.length = m.length := by
    have := congrArg List.length h
    rw [length_flatten_of_length l hl, length_flatten_of_length m hm] at this
    exact Nat.eq_of_mul_eq_mul_left hn this
  induction l generalizing m with
  | nil =>
    rw [List.length_nil] at hlen
    exact (List.length_eq_zero_iff.mp hlen.symm).symm
  | cons c l ih =>
    cases m with
    | nil => simp at hlen
    | cons d m =>
      have hcd : c.length = d.length :=
        (hl c (List.mem_cons_self ..)).trans (hm d (List.mem_cons_self ..)).symm
      rw [List.flatten_cons, List.flatten_cons] at h
      obtain ⟨rfl, ht⟩ := List.append_inj h hcd
      rw [ih m (fun x hx => hl x (List.mem_cons_of_mem _ hx))
        (fun x hx => hm x (List.mem_cons_of_mem _ hx)) ht (by simpa using hlen)]

/-- For every list of packet objects and every way `recv` can deliver their concatenation, the
handler calls `rmp::Server::handle` once per packet, in order and on its bytes, with the
state and the replies of handling them one by one, exactly when every `recv` returns a whole
packet object. -/
theorem framing_iff (os : Nat → Os) (w : Host) (req : List UInt8) (hreq : req.length = sizeofPacket)
    (packets chunks : List (List UInt8)) (hp : ∀ p ∈ packets, p.length = sizeofPacket)
    (hc : ∀ c ∈ chunks, 1 ≤ c.length ∧ c.length ≤ sizeofPacket)
    (hstream : chunks.flatten = packets.flatten) :
    let c := connectionHandler os w req chunks
    (c.handled = packets ∧ (c.sent, c.host) = handleOneByOne os w 0 packets) ↔
      ∀ chunk ∈ chunks, chunk.length = sizeofPacket := by
  dsimp only
  constructor
  · rintro ⟨hh, -⟩
    have hlen := length_handled os chunks ⟨w, req, [], []⟩
    change (connectionHandler os w req chunks).handled.length = _ at hlen
    rw [hh, List.length_nil, Nat.zero_add] at hlen
    apply length_eq_of_full chunks (fun c h => (hc c h).2)
    rw [hstream, length_flatten_of_length packets hp, hlen]
  · intro hw
    obtain rfl := eq_of_flatten_eq (by decide) chunks packets hw hp hstream
    have h := foldl_iterate_whole os chunks ⟨w, req, [], []⟩ hreq hw
    have hres := h.2
    rw [List.nil_append] at hres
    exact ⟨h.1, hres⟩

/-- A request object whose bytes are all zero: `action` 0, `npages` 0. -/
def zeroRequest : List UInt8 := List.replicate sizeofPacket 0

/-- A request object with other bytes: an `alloc` of `0x02020202` pages. -/
def otherRequest : List UInt8 :=
  List.replicate 8 1 ++ List.replicate 12 2 ++ List.replicate 4108 0

theorem whole_packets_framed :
    let c := connectionHandler (fun _ => ⟨none, false⟩) (Host.fresh fun _ => 0) zeroRequest
      [otherRequest, zeroRequest]
    c.handled = [otherRequest, zeroRequest] ∧
      (c.sent, c.host) = handleOneByOne (fun _ => ⟨none, false⟩) (Host.fresh fun _ => 0) 0
        [otherRequest, zeroRequest] := by
  have hzero : zeroRequest.length = sizeofPacket := List.length_replicate
  have hother : otherRequest.length = sizeofPacket := by
    rw [otherRequest, List.length_append, List.length_append, List.length_replicate,
      List.length_replicate, List.length_replicate]
    rfl
  have hlen : ∀ p ∈ [otherRequest, zeroRequest], p.length = sizeofPacket := by
    simp [hzero, hother]
  apply (framing_iff _ (Host.fresh fun _ => 0) zeroRequest hzero _ _ hlen ?_ rfl).mpr hlen
  intro c hc
  rw [hlen c hc]
  decide

/-- One packet delivered as its first byte and its other 4127 bytes is handled twice. -/
theorem split_packet_misframed :
    ([[0], List.replicate 4127 0] : List (List UInt8)).flatten = [zeroRequest].flatten ∧
      (connectionHandler (fun _ => ⟨none, false⟩) (Host.fresh fun _ => 0) zeroRequest
        [[0], List.replicate 4127 0]).handled ≠ [zeroRequest] := by
  constructor
  · rfl
  · intro h
    have hlen := length_handled (fun _ => ⟨none, false⟩) [[0], List.replicate 4127 0]
      ⟨Host.fresh (fun _ => 0), zeroRequest, [], []⟩
    change (connectionHandler _ _ _ _).handled.length = _ at hlen
    rw [h] at hlen
    exact absurd hlen (by decide)

end RemoteMemoryPool.Proofs
