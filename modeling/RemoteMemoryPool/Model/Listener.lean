import RemoteMemoryPool.Model.Connection
import Mathlib.Logic.Function.Basic

/-!
# The main thread of the server

The loop of `main` of `server.cpp`, once the listening socket is set up: it accepts a connection,
starts a thread with `connection_handler` for it and joins that thread before it accepts the next
one. The kernel keeps established connections in the order they arrived, and for each of them the
bytes the client has sent and the handler has not received. Clients connect, send and disconnect at
any time. The console output is left out, and a `send` that does not end the process transmits the
whole packet object.
-/

namespace RemoteMemoryPool

/-- Where the main thread stands: in `accept`, in `pthread_join` for the handler of a connection,
or at its end. The handler of a failed `accept` has no connection. It has called
`rmp::Server::handle` on `req` so many times. The kernel may have killed the process. -/
inductive MainState (κ : Type)
  | accepting
  | serving (conn : Option κ) (handled : Nat) (req : List UInt8)
  | returned (status : Int)
  | killed

/-- The body of the loop up to `pthread_join`, and the end of `main`, for a return of `accept` and
of `pthread_create`. -/
def afterAccept {κ : Type} (clientSock created : Int) (conn : Option κ) (req : List UInt8) :
    MainState κ :=
  if clientSock = 0 then .returned (if clientSock < 0 then 1 else 0)
  else if created < 0 then .returned 1
  else .serving conn 0 req

/-- The server process and the kernel's view of its clients. -/
structure Listener (κ : Type) where
  host : Host
  backlog : List κ
  connected : κ → Bool
  closed : κ → Bool
  inbox : κ → List UInt8
  outbox : κ → List UInt8
  main : MainState κ

inductive NetEvent (κ : Type)
  | connect (k : κ)
  | send (k : κ) (bytes : List UInt8)
  | close (k : κ)
  | acceptFailed (clientSock created : Int)
  | accept (k : κ) (clientSock created : Int)
  | recv (k : κ) (chunk : List UInt8)
  | recvEnd (readSize : Int)
  | killed (k : κ) (chunk : List UInt8)

/-- A `memcpy` of a page that is not mapped whole. -/
def ServerOp.Wild (w : Host) : ServerOp → Prop
  | .memcpyFrom addr => ∃ i < 4096, w.space.mapped (addr + i) = false
  | .memcpyTo addr _ => ∃ i < 4096, w.space.mapped (addr + i) = false
  | _ => False

/-- The call of `rmp::Server::handle` makes a `memcpy` outside what is mapped. -/
def Host.Wild (os : Os) (w : Host) (packet : Packet) : Prop :=
  ∃ x ∈ (Server.handle packet).performed (ServerOp.exec os) w, x.2.Wild x.1

section Steps

variable {κ : Type} [DecidableEq κ]

/-- `main` is about to call `accept` for the first time. -/
def Listener.init (mem : Nat → UInt8) : Listener κ where
  host := Host.fresh mem
  backlog := []
  connected := fun _ => false
  closed := fun _ => false
  inbox := fun _ => []
  outbox := fun _ => []
  main := .accepting

/-- An iteration of the loop of `connection_handler` for connection `k` that received `chunk`. -/
def Listener.iterate (os : κ → Nat → Os) (s : Listener κ) (k : κ) (handled : Nat)
    (req chunk : List UInt8) : Listener κ :=
  let r := handleBytes (os k handled) s.host (received req chunk)
  { s with
    host := r.2
    outbox := Function.update s.outbox k (s.outbox k ++ r.1)
    main := .serving (some k) (handled + 1) r.1 }

/-- The steps of the clients, of the main thread and of the handler it waits for. The kernel
answers the system calls of the `n`th iteration for connection `k` with `os k n`, and the request
object of its handler starts as `fresh k`. A positive result of `pthread_create` is excluded: the
thread that is then joined is indeterminate.

A request can be the last one the process handles. The `send` of its reply raises `SIGPIPE` when the
client has closed the connection and the kernel knows, and a `memcpy` outside the mapped memory
raises `SIGSEGV` unless it hits other memory of the process. The process is gone then; the state is
left as it was before the request. -/
inductive Listener.Step (os : κ → Nat → Os) (fresh : κ → List UInt8) (s : Listener κ) :
    NetEvent κ → Listener κ → Prop
  | connect {k : κ} (hk : s.connected k = false) :
      Step os fresh s (.connect k)
        { s with
          backlog := s.backlog ++ [k]
          connected := Function.update s.connected k true }
  | send {k : κ} {bytes : List UInt8} (hk : s.connected k = true) (ho : s.closed k = false) :
      Step os fresh s (.send k bytes)
        { s with inbox := Function.update s.inbox k (s.inbox k ++ bytes) }
  | close {k : κ} (hk : s.connected k = true) :
      Step os fresh s (.close k) { s with closed := Function.update s.closed k true }
  | acceptFailed {clientSock created : Int} (hm : s.main = .accepting) (hs : clientSock < 0)
      (hc : created ≤ 0) :
      Step os fresh s (.acceptFailed clientSock created)
        { s with main := afterAccept clientSock created none [] }
  | accept {k : κ} {rest : List κ} {clientSock created : Int} (hm : s.main = .accepting)
      (hb : s.backlog = k :: rest) (hs : 0 ≤ clientSock) (hc : created ≤ 0) :
      Step os fresh s (.accept k clientSock created)
        { s with backlog := rest, main := afterAccept clientSock created (some k) (fresh k) }
  | recv {k : κ} {handled : Nat} {req chunk rest : List UInt8}
      (hm : s.main = .serving (some k) handled req) (hi : s.inbox k = chunk ++ rest)
      (hpos : 1 ≤ chunk.length) (hle : chunk.length ≤ sizeofPacket)
      (hos : (os k handled).Admissible s.host (Packet.ofBytes (received req chunk))) :
      Step os fresh s (.recv k chunk)
        { s.iterate os k handled req chunk with inbox := Function.update s.inbox k rest }
  | disconnected {k : κ} {handled : Nat} {req : List UInt8}
      (hm : s.main = .serving (some k) handled req) (hi : s.inbox k = []) (hc : s.closed k = true) :
      Step os fresh s (.recvEnd 0) { s with main := .accepting }
  | recvFailed {conn : Option κ} {handled : Nat} {req : List UInt8}
      (hm : s.main = .serving conn handled req) :
      Step os fresh s (.recvEnd (-1)) { s with main := .accepting }
  | killed {k : κ} {handled : Nat} {req chunk rest : List UInt8}
      (hm : s.main = .serving (some k) handled req) (hi : s.inbox k = chunk ++ rest)
      (hpos : 1 ≤ chunk.length) (hle : chunk.length ≤ sizeofPacket)
      (hos : (os k handled).Admissible s.host (Packet.ofBytes (received req chunk)))
      (hfatal : s.closed k = true ∨
        s.host.Wild (os k handled) (Packet.ofBytes (received req chunk))) :
      Step os fresh s (.killed k chunk) { s with main := .killed }

end Steps

end RemoteMemoryPool
