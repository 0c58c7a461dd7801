import RemoteMemoryPool.Model.Server

/-!
# The connection handler

`connection_handler` of `server.cpp`: one `recv` into the request object per iteration, one
call of `rmp::Server::handle` on that object, one `send` of it. A `recv` that returns fewer
than `sizeof(rmp::packet)` bytes overwrites the beginning of the object only.
-/

namespace RemoteMemoryPool

/-- The handler between two iterations: the server, the bytes of the request object `req`, the
bytes the object held at each call of `rmp::Server::handle`, and the bytes sent back. -/
structure Connection where
  host : Host
  req : List UInt8
  handled : List (List UInt8)
  sent : List UInt8

/-- The request object after a `recv` that returned `chunk`. -/
def received (req chunk : List UInt8) : List UInt8 := chunk ++ req.drop chunk.length

/-- `info->server->handle(req)` on the bytes of the object; `os` answers the system calls. -/
def handleBytes (os : Os) (w : Host) (req : List UInt8) : List UInt8 × Host :=
  let r := w.handle os (Packet.ofBytes req)
  (r.1.toBytes (paddingOf req), r.2)

/-- One iteration, for a `recv` that returned `chunk`. The answers of the kernel to the `k`th
call of `rmp::Server::handle` are `os k`. -/
def Connection.iterate (os : Nat → Os) (c : Connection) (chunk : List UInt8) : Connection :=
  let req := received c.req chunk
  let r := handleBytes (os c.handled.length) c.host req
  { host := r.2, req := r.1, handled := c.handled ++ [req], sent := c.sent ++ r.1 }

/-- The loop, for the successive results of `recv` up to the one that is not positive. The
object starts with indeterminate contents `req`. -/
def connectionHandler (os : Nat → Os) (w : Host) (req : List UInt8)
    (chunks : List (List UInt8)) : Connection :=
  chunks.foldl (Connection.iterate os) ⟨w, req, [], []⟩

/-- The server handles the given packet objects one by one; `k` calls came before. -/
def handleOneByOne (os : Nat → Os) (w : Host) : Nat → List (List UInt8) → List UInt8 × Host
  | _, [] => ([], w)
  | k, req :: rest =>
    let r := handleBytes (os k) w req
    let t := handleOneByOne os r.2 (k + 1) rest
    (r.1 ++ t.1, t.2)

end RemoteMemoryPool
