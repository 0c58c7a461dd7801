import RemoteMemoryPool.Model.ServerThreads
import RemoteMemoryPool.Proofs.Framing
import RemoteMemoryPool.Proofs.ServerSpec
import Mathlib.Data.List.OfFn

/-!
# Packets on the wire

`PacketObject` is a value the C type `rmp::packet` can hold, padding included. Encoding such
objects and decoding buffers of `sizeof(rmp::packet)` bytes are inverse to each other, so the
handler of a connection, which only sees bytes, answers with the bytes of the replies to the
packets that were sent.
-/

namespace RemoteMemoryPool.Proofs

open Interaction Transition

lemma leNat_lt (bs : List UInt8) : leNat bs < 256 ^ bs.length := by
  induction bs with
  | nil => decide
  | cons b bs ih =>
    have hb := b.toNat_lt
    rw [leNat, List.length_cons, Nat.pow_succ]
    omega

lemma leNat_leBytes (k n : Nat) : leNat (leBytes k n) = n % 256 ^ k := by
  induction k generalizing n with
  | zero => rw [leBytes, leNat, Nat.pow_zero, Nat.mod_one]
  | succ k ih =>
    rw [leBytes, leNat, ih, Nat.pow_succ', Nat.mod_mul, UInt8.toNat_ofNat']

lemma leBytes_leNat (bs : List UInt8) : leBytes bs.length (leNat bs) = bs := by
  induction bs with
  | nil => rfl
  | cons b bs ih =>
    have hb := b.toNat_lt
    have hdiv : (b.toNat + 256 * leNat bs) / 256 = leNat bs := by omega
    have hmod : UInt8.ofNat (b.toNat + 256 * leNat bs) = b := by
      apply UInt8.toNat_inj.mp
      rw [UInt8.toNat_ofNat']
      omega
    rw [List.length_cons, leNat, leBytes, hdiv, hmod, ih]

lemma leNat_leBytes_uint32 (x : UInt32) : UInt32.ofNat (leNat (leBytes 4 x.toNat)) = x := by
  have hx := x.toNat_lt
  rw [leNat_leBytes, Nat.mod_eq_of_lt (by omega), UInt32.ofNat_toNat]

lemma leBytes_leNat_uint32 {bs : List UInt8} (h : bs.length = 4) :
    leBytes 4 (UInt32.ofNat (leNat bs)).toNat = bs := by
  have hlt := leNat_lt bs
  rw [h] at hlt
  rw [UInt32.toNat_ofNat', Nat.mod_eq_of_lt (by omega), ← h, leBytes_leNat]

/-- The values of a C `long`. -/
def IsLong (z : Int) : Prop := -2 ^ 63 ≤ z ∧ z < 2 ^ 63

instance (z : Int) : Decidable (IsLong z) := inferInstanceAs (Decidable (_ ∧ _))

lemma bitsOfLong_lt (z : Int) : bitsOfLong z < 2 ^ 64 := by
  unfold bitsOfLong
  omega

lemma longOfBits_bitsOfLong {z : Int} (h : IsLong z) : longOfBits (bitsOfLong z) = z := by
  obtain ⟨hl, hu⟩ := h
  unfold longOfBits bitsOfLong
  split <;> omega

lemma bitsOfLong_longOfBits {n : Nat} (h : n < 2 ^ 64) : bitsOfLong (longOfBits n) = n := by
  unfold longOfBits bitsOfLong
  split <;> omega

lemma isLong_longOfBits {n : Nat} (h : n < 2 ^ 64) : IsLong (longOfBits n) := by
  unfold longOfBits IsLong
  split <;> omega

lemma isLong_handleOfCount (n : UInt32) : IsLong (handleOfCount n) := by
  have hn := n.toNat_lt
  unfold handleOfCount IsLong
  omega

def slice (n m : Nat) (buf : List UInt8) : List UInt8 := (buf.drop n).take m

lemma slice_append {n m : Nat} (a b c : List UInt8) (ha : a.length = n) (hb : b.length = m) :
    slice n m (a ++ (b ++ c)) = b := by
  unfold slice
  rw [← ha, List.drop_left, ← hb, List.take_left]

lemma take_append_slice (n m : Nat) (buf : List UInt8) :
    buf.take n ++ slice n m buf = buf.take (n + m) := List.take_add.symm

lemma length_slice {n m : Nat} {buf : List UInt8} (h : n + m ≤ buf.length) :
    (slice n m buf).length = m := by
  rw [slice, List.length_take, List.length_drop]
  omega

lemma ofFn_getD {n m : Nat} {buf : List UInt8} (h : n + m ≤ buf.length) :
    List.ofFn (fun i : Fin m => buf.getD (n + i) 0) = slice n m buf := by
  apply List.ext_getElem
  · rw [List.length_ofFn, length_slice h]
  · intro i h1 h2
    rw [List.length_ofFn] at h1
    have hi : n + i < buf.length := by omega
    simp [slice, hi]

section Decode

variable (p : Packet) (padding : List UInt8)

lemma toBytes_hndl : (p.toBytes padding).take 8 = leBytes 8 (bitsOfLong p.hndl) := by
  simp only [Packet.toBytes, List.append_assoc]
  exact List.take_left' (length_leBytes _ _)

lemma toBytes_npages : slice 8 4 (p.toBytes padding) = leBytes 4 p.npages.toNat := by
  simp only [Packet.toBytes, List.append_assoc]
  exact slice_append _ _ _ (length_leBytes _ _) (length_leBytes _ _)

lemma toBytes_size : slice 12 4 (p.toBytes padding) = leBytes 4 p.size.toNat := by
  simp only [Packet.toBytes]
  rw [List.append_assoc, List.append_assoc, List.append_assoc, List.append_assoc, List.append_assoc]
  exact slice_append _ _ _ (by simp) (length_leBytes _ _)

lemma toBytes_offset : slice 16 4 (p.toBytes padding) = leBytes 4 p.offset.toNat := by
  simp only [Packet.toBytes]
  rw [List.append_assoc, List.append_assoc, List.append_assoc, List.append_assoc]
  exact slice_append _ _ _ (by simp) (length_leBytes _ _)

lemma toBytes_action : slice 20 4 (p.toBytes padding) = leBytes 4 p.action.toNat := by
  simp only [Packet.toBytes]
  rw [List.append_assoc, List.append_assoc, List.append_assoc]
  exact slice_append _ _ _ (by simp) (length_leBytes _ _)

lemma toBytes_data : slice 24 4096 (p.toBytes padding) = List.ofFn p.data := by
  simp only [Packet.toBytes]
  rw [List.append_assoc, List.append_assoc]
  exact slice_append _ _ _ (by simp) (List.length_ofFn)

lemma toBytes_error : slice 4120 4 (p.toBytes padding) = leBytes 4 p.error.toNat := by
  simp only [Packet.toBytes]
  rw [List.append_assoc]
  exact slice_append _ _ _
    (by simp only [List.length_append, length_leBytes, List.length_ofFn]) (length_leBytes _ _)

lemma paddingOf_toBytes : paddingOf (p.toBytes padding) = padding := by
  unfold paddingOf Packet.toBytes
  exact List.drop_left' (by simp only [List.length_append, length_leBytes, List.length_ofFn])

end Decode

lemma ofBytes_eq (buf : List UInt8) : Packet.ofBytes buf =
    ⟨longOfBits (leNat (buf.take 8)), UInt32.ofNat (leNat (slice 8 4 buf)),
      UInt32.ofNat (leNat (slice 12 4 buf)), UInt32.ofNat (leNat (slice 16 4 buf)),
      UInt32.ofNat (leNat (slice 20 4 buf)), fun i => buf.getD (24 + i) 0,
      UInt32.ofNat (leNat (slice 4120 4 buf))⟩ := rfl

lemma ofBytes_toBytes {p : Packet} (h : IsLong p.hndl) (padding : List UInt8) :
    Packet.ofBytes (p.toBytes padding) = p := by
  have hb := bitsOfLong_lt p.hndl
  have hdata : (fun i : Fin 4096 => (p.toBytes padding).getD (24 + i) 0) = p.data := by
    have hlen : 24 + 4096 ≤ (p.toBytes padding).length := by
      rw [length_toBytes]
      omega
    exact List.ofFn_injective ((ofFn_getD hlen).trans (toBytes_data p padding))
  rw [ofBytes_eq, toBytes_hndl, toBytes_npages, toBytes_size, toBytes_offset, toBytes_action,
    toBytes_error, hdata]
  simp only [leNat_leBytes_uint32]
  rw [leNat_leBytes, Nat.mod_eq_of_lt (by omega), longOfBits_bitsOfLong h]

lemma toBytes_ofBytes {buf : List UInt8} (h : buf.length = sizeofPacket) :
    (Packet.ofBytes buf).toBytes (paddingOf buf) = buf := by
  have hlen : buf.length = 4128 := h
  have h8 : (buf.take 8).length = 8 := by
    rw [List.length_take]
    omega
  have hhndl : leBytes 8 (bitsOfLong (longOfBits (leNat (buf.take 8)))) = buf.take 8 := by
    have hlt := leNat_lt (buf.take 8)
    rw [h8] at hlt
    have hle := leBytes_leNat (buf.take 8)
    rw [h8] at hle
    rw [bitsOfLong_longOfBits (by omega), hle]
  have hfield : ∀ n, n + 4 ≤ 4128 →
      leBytes 4 (UInt32.ofNat (leNat (slice n 4 buf))).toNat = slice n 4 buf :=
    fun n hn => leBytes_leNat_uint32 (length_slice (by omega))
  have hdata : List.ofFn (fun i : Fin 4096 => buf.getD (24 + i) 0) = slice 24 4096 buf :=
    ofFn_getD (by omega)
  change leBytes 8 (bitsOfLong (longOfBits (leNat (buf.take 8)))) ++
    leBytes 4 (UInt32.ofNat (leNat (slice 8 4 buf))).toNat ++
    leBytes 4 (UInt32.ofNat (leNat (slice 12 4 buf))).toNat ++
    leBytes 4 (UInt32.ofNat (leNat (slice 16 4 buf))).toNat ++
    leBytes 4 (UInt32.ofNat (leNat (slice 20 4 buf))).toNat ++
    List.ofFn (fun i : Fin 4096 => buf.getD (24 + i) 0) ++
    leBytes 4 (UInt32.ofNat (leNat (slice 4120 4 buf))).toNat ++ buf.drop 4124 = buf
  rw [hhndl, hfield 8 (by omega), hfield 12 (by omega), hfield 16 (by omega), hfield 20 (by omega),
    hfield 4120 (by omega), hdata, take_append_slice, take_append_slice, take_append_slice,
    take_append_slice, take_append_slice, take_append_slice, List.take_append_drop]

/-! ### Packet objects -/

/-- A value of the C type `rmp::packet`. -/
@[ext]
structure PacketObject where
  packet : Packet
  isLong : IsLong packet.hndl
  padding : List UInt8
  length_padding : padding.length = 4

/-- A buffer of `sizeof(rmp::packet)` bytes. -/
abbrev Buffer := { buf : List UInt8 // buf.length = sizeofPacket }

lemma length_object (p : Packet) {padding : List UInt8} (h : padding.length = 4) :
    (p.toBytes padding).length = sizeofPacket := by
  rw [length_toBytes, h]
  rfl

lemma isLong_ofBytes {buf : List UInt8} (h : buf.length = sizeofPacket) :
    IsLong (Packet.ofBytes buf).hndl := by
  have hlen : buf.length = 4128 := h
  have hlt := leNat_lt (buf.take 8)
  have h8 : (buf.take 8).length = 8 := by
    rw [List.length_take]
    omega
  rw [h8] at hlt
  rw [ofBytes_eq]
  exact isLong_longOfBits (by omega)

lemma length_paddingOf {buf : List UInt8} (h : buf.length = sizeofPacket) :
    (paddingOf buf).length = 4 := by
  rw [paddingOf, List.length_drop, h]
  rfl

def PacketObject.encode (o : PacketObject) : Buffer :=
  ⟨o.packet.toBytes o.padding, length_object o.packet o.length_padding⟩

def PacketObject.decode (b : Buffer) : PacketObject where
  packet := Packet.ofBytes b.1
  isLong := isLong_ofBytes b.2
  padding := paddingOf b.1
  length_padding := length_paddingOf b.2

@[simp] lemma PacketObject.encode_val (o : PacketObject) :
    o.encode.1 = o.packet.toBytes o.padding := rfl

@[simp] lemma PacketObject.decode_packet (b : Buffer) :
    (PacketObject.decode b).packet = Packet.ofBytes b.1 := rfl

@[simp] lemma PacketObject.decode_padding (b : Buffer) :
    (PacketObject.decode b).padding = paddingOf b.1 := rfl

/-- Encoding and decoding of packet objects are inverse to each other: no two objects have the
same bytes, and every buffer of the right length is the object of a packet. -/
theorem packet_codec :
    Function.LeftInverse PacketObject.decode PacketObject.encode ∧
      Function.RightInverse PacketObject.decode PacketObject.encode := by
  constructor
  · intro o
    apply PacketObject.ext
    · rw [PacketObject.decode_packet, PacketObject.encode_val, ofBytes_toBytes o.isLong]
    · rw [PacketObject.decode_padding, PacketObject.encode_val, paddingOf_toBytes]
  · intro b
    apply Subtype.ext
    rw [PacketObject.encode_val, PacketObject.decode_packet, PacketObject.decode_padding,
      toBytes_ofBytes b.2]

/-! ### Replies -/

/-- The replies a call can make: the request itself, or the request with one field replaced. -/
inductive Echoes (p : Packet) : Packet → Prop
  | same (ha : p.action = 2 ∨ p.action = 3) : Echoes p p
  | handle (ha : p.action = 0) (n : UInt32) : Echoes p { p with hndl := handleOfCount n }
  | data (ha : p.action = 1) (d : Page) : Echoes p { p with data := d }
  | error (e : UInt32) (he : 1 ≤ e ∧ e ≤ 6) : Echoes p { p with error := e }

section Returns

variable (p : Packet)

lemma alloc_returns (npages size : UInt32) : (Server.alloc npages size).Returns
    (fun h => h = -1 ∨ ∃ n, h = handleOfCount n) := by
  unfold Server.alloc
  rw [Program.returns_bind]
  intro region
  cases region with
  | none => exact Or.inl rfl
  | some addr => exact fun n _ _ => Or.inr ⟨n, rfl⟩

lemma read_returns : (Server.read p.hndl p).Returns
    (fun x => x = (-1, p) ∨ ∃ d, x = (0, { p with data := d })) := by
  simp only [Server.read, Program.returns_bind]
  intro npages addr
  change Program.Returns _ (if p.offset ≥ npages then _ else _)
  by_cases ho : p.offset ≥ npages
  · rw [if_pos ho]
    exact Or.inl rfl
  · rw [if_neg ho]
    exact fun d => Or.inr ⟨d, rfl⟩

lemma alloc_echoes (ha : p.action = 0) : (Server.handleAlloc p).Returns (Echoes p) := by
  unfold Server.handleAlloc
  rw [Program.returns_bind]
  apply (alloc_returns p.npages p.size).mono
  rintro h (rfl | ⟨n, rfl⟩)
  · exact Echoes.error allocFailed (by decide)
  · rw [if_neg (handleOfCount_ne_neg_one n)]
    exact Echoes.handle ha n

lemma check_returns {P : Packet → Prop} {x y : ServerM Packet} (h : Handle) (hx : x.Returns P)
    (hy : y.Returns P) : (Server.containsKey h >>= fun b => if b then x else y).Returns P := by
  rw [Program.returns_bind]
  intro found
  change Program.Returns P (if found then x else y)
  split
  · exact hx
  · exact hy

lemma invalidHandle_echoes : (pure { p with error := invalidHandle } : ServerM Packet).Returns (Echoes p) :=
  Echoes.error invalidHandle (by decide)

lemma read_echoes (ha : p.action = 1) : (Server.handleRead p).Returns (Echoes p) := by
  apply check_returns p.hndl _ (invalidHandle_echoes p)
  rw [Program.returns_bind]
  apply (read_returns p).mono
  rintro x (rfl | ⟨d, rfl⟩)
  · exact Echoes.error readFailed (by decide)
  · exact Echoes.data ha d

lemma write_echoes (ha : p.action = 2) : (Server.handleWrite p).Returns (Echoes p) := by
  apply check_returns p.hndl _ (invalidHandle_echoes p)
  rw [Program.returns_bind]
  apply (Program.returns_any _).mono
  intro suc _
  split
  · exact Echoes.error writeFailed (by decide)
  · exact Echoes.same (.inl ha)

lemma free_echoes (ha : p.action = 3) : (Server.handleFree p).Returns (Echoes p) := by
  apply check_returns p.hndl _ (invalidHandle_echoes p)
  rw [Program.returns_bind]
  apply (Program.returns_any _).mono
  intro suc _
  split
  · exact Echoes.error freeFailed (by decide)
  · exact Echoes.same (.inr ha)

end Returns

/-- Whatever the operations of a call answer, its reply echoes the request. -/
lemma handle_echoes (p : Packet) : (Server.handle p).Returns (Echoes p) := by
  unfold Server.handle
  split
  · next h => exact alloc_echoes p h
  split
  · next h => exact read_echoes p h
  split
  · next h => exact write_echoes p h
  split
  · next h => exact free_echoes p h
  · exact Echoes.error unknownAction (by decide)

section Interleaved

variable {ι : Type} [DecidableEq ι] {pkts : ι → Packet}

/-- However calls are interleaved and whatever state the server is in, the reply of a call is its
request with at most one field replaced: the handle by an `alloc`, the data by a `read`, or the
error. -/
theorem replies_echo_requests {w : Host} {tr : CallHistory ι} {c : Calls ι}
    (hr : Run Calls.Step (Calls.init pkts w) tr c) {i : ι} {reply : Packet}
    (hi : c.threads i = .pure reply) : Echoes (pkts i) reply := by
  have hinv : ∀ j, (c.threads j).Returns (Echoes (pkts j)) := by
    apply hr.invariant (I := fun c => ∀ j, (c.threads j).Returns (Echoes (pkts j)))
      (C := fun _ _ => True)
    · intro c a c' hc _ hs
      exact Pool.Step.returns (P := fun j => Echoes (pkts j)) hs hc
    · exact fun j => handle_echoes (pkts j)
    · exact fun _ _ => trivial
  have hret := hinv i
  rw [hi] at hret
  exact hret

end Interleaved

/-- A read of a handle that was never handed out. -/
def strayRead : Packet := ⟨7, 0, 4096, 0, 1, zeroPage, 0⟩

theorem stray_read_echoed :
    ∃ tr c, Run Calls.Step (Calls.init (fun _ : Unit => strayRead) (Host.fresh fun _ => 0)) tr c ∧
      c.threads () = .pure { strayRead with error := invalidHandle } ∧
      Echoes strayRead { strayRead with error := invalidHandle } := by
  have hstep : Calls.Step (Calls.init (fun _ : Unit => strayRead) (Host.fresh fun _ => 0))
      ⟨(), .containsKey 7, false⟩
      ⟨fun _ => .pure { strayRead with error := invalidHandle }, Host.fresh fun _ => 0⟩ := by
    refine ⟨_, rfl, ⟨⟨none, true⟩, ?_, rfl⟩, ?_⟩
    · intro len h
      cases h
    · funext i
      rfl
  have hrun := Run.single hstep
  exact ⟨_, _, hrun, rfl, replies_echo_requests (i := ()) hrun rfl⟩

lemma Echoes.isLong {p reply : Packet} (h : Echoes p reply) (hp : IsLong p.hndl) :
    IsLong reply.hndl := by
  cases h with
  | handle _ n => exact isLong_handleOfCount n
  | _ => exact hp

/-- The object in which the server answers the request object `o`. -/
def PacketObject.reply (os : Os) (w : Host) (o : PacketObject) : PacketObject where
  packet := (w.handle os o.packet).1
  isLong := ((handle_echoes o.packet).run (ServerOp.exec os) w).isLong o.isLong
  padding := o.padding
  length_padding := o.length_padding

lemma handleBytes_encode (os : Os) (w : Host) (o : PacketObject) :
    handleBytes os w o.encode.1 = ((o.reply os w).encode.1, (w.handle os o.packet).2) := by
  unfold handleBytes
  rw [PacketObject.encode_val, ofBytes_toBytes o.isLong, paddingOf_toBytes, PacketObject.encode_val]
  rfl

/-- The server handles the given objects one by one; `k` calls came before. -/
def replyObjects (os : Nat → Os) (w : Host) : Nat → List PacketObject → List PacketObject
  | _, [] => []
  | k, o :: rest => o.reply (os k) w :: replyObjects os (w.handle (os k) o.packet).2 (k + 1) rest

def callsFor (os : Nat → Os) (k : Nat) (objs : List PacketObject) : List (Os × Packet) :=
  (objs.zipIdx k).map (fun x => (os x.2, x.1.packet))

lemma callsFor_cons (os : Nat → Os) (k : Nat) (o : PacketObject) (objs : List PacketObject) :
    callsFor os k (o :: objs) = (os k, o.packet) :: callsFor os (k + 1) objs := by
  unfold callsFor
  rw [List.zipIdx_cons, List.map_cons]

lemma handleOneByOne_encode (os : Nat → Os) (w : Host) (k : Nat) (objs : List PacketObject) :
    handleOneByOne os w k (objs.map (fun o => o.encode.1)) =
      (((replyObjects os w k objs).map (fun o => o.encode.1)).flatten,
        (w.handleAll (callsFor os k objs)).2) := by
  induction objs generalizing w k with
  | nil => rfl
  | cons o objs ih =>
    rw [List.map_cons, handleOneByOne, handleBytes_encode, ih, replyObjects, callsFor_cons]
    rfl

lemma replyObjects_packet (os : Nat → Os) (w : Host) (k : Nat) (objs : List PacketObject) :
    (replyObjects os w k objs).map (fun o => o.packet) =
      (w.handleAll (callsFor os k objs)).1.map (fun x => x.2.reply) := by
  induction objs generalizing w k with
  | nil => rfl
  | cons o objs ih =>
    rw [replyObjects, callsFor_cons, List.map_cons, ih]
    rfl

lemma replyObjects_padding (os : Nat → Os) (w : Host) (k : Nat) (objs : List PacketObject) :
    (replyObjects os w k objs).map (fun o => o.padding) = objs.map (fun o => o.padding) := by
  induction objs generalizing w k with
  | nil => rfl
  | cons o objs ih =>
    rw [replyObjects, List.map_cons, List.map_cons, ih]
    rfl

lemma connectionHandler_encode (os : Nat → Os) (w : Host) (req : Buffer)
    (objs : List PacketObject) :
    (connectionHandler os w req.1 (objs.map (fun o => o.encode.1))).sent =
        ((replyObjects os w 0 objs).map (fun o => o.encode.1)).flatten ∧
      (connectionHandler os w req.1 (objs.map (fun o => o.encode.1))).host =
        (w.handleAll (callsFor os 0 objs)).2 := by
  have hlen : ∀ chunk ∈ objs.map (fun o => o.encode.1), chunk.length = sizeofPacket := by
    intro chunk hc
    obtain ⟨o, -, rfl⟩ := List.mem_map.mp hc
    exact o.encode.2
  have hwhole := (foldl_iterate_whole os _ ⟨w, req.1, [], []⟩ req.2 hlen).2
  rw [List.length_nil, handleOneByOne_encode, List.nil_append] at hwhole
  exact Prod.mk.inj hwhole

/-- The bytes the handler of a connection sends for request objects that arrive whole are the
bytes of the replies `rmp::Server::handle` makes to their packets, in order, each with the padding
of its request, and the server is left as handling these packets leaves it. -/
theorem replies_on_the_wire (os : Nat → Os) (w : Host) (req : Buffer) (objs : List PacketObject) :
    let c := connectionHandler os w req.1 (objs.map (fun o => o.encode.1))
    let t := w.handleAll (callsFor os 0 objs)
    c.host = t.2 ∧ ∃ replies : List PacketObject,
      replies.map (fun o => o.packet) = t.1.map (fun x => x.2.reply) ∧
        replies.map (fun o => o.padding) = objs.map (fun o => o.padding) ∧
        c.sent = (replies.map (fun o => o.encode.1)).flatten := by
  obtain ⟨hsent, hhost⟩ := connectionHandler_encode os w req objs
  exact ⟨hhost, replyObjects os w 0 objs, replyObjects_packet os w 0 objs,
    replyObjects_padding os w 0 objs, hsent⟩

end RemoteMemoryPool.Proofs
