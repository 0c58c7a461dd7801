import RemoteMemoryPool.Lib.CallLoop

/-!
# Reading and writing a whole buffer

`readn` and `writen` of `server.cpp`, the routines written for `connection_handler` in place
of its single `recv` and `send`. Each is a loop around one system call; the results of these
calls are a list, of which one is taken for every call.
-/

namespace RemoteMemoryPool

open CallLoop

/-- The values of `errno` the two routines tell apart. -/
inductive Errno
  | EAGAIN
  | EWOULDBLOCK
  | EINTR
  | other (code : Nat)
  deriving DecidableEq, Repr

/-- The buffer and the length a system call is given. -/
structure IoCall where
  buf : Nat
  count : Nat
  deriving DecidableEq, Repr

/-- The result of `read`: -1 with an `errno`, or the bytes it delivered (none at the end of the
stream). -/
inductive ReadResult
  | failed (errno : Errno)
  | bytes (data : List UInt8)
  deriving DecidableEq, Repr

/-- The result of `write`: -1 with an `errno`, or the number of bytes it accepted. -/
inductive WriteResult
  | failed (errno : Errno)
  | accepted (count : Nat)
  deriving DecidableEq, Repr

/-- `read` delivers at most the bytes it is asked for. -/
def ReadResult.Answers (c : IoCall) : ReadResult → Prop
  | .failed _ => True
  | .bytes data => data.length ≤ c.count

/-- `write` accepts at most the bytes it is offered. -/
def WriteResult.Answers (c : IoCall) : WriteResult → Prop
  | .failed _ => True
  | .accepted k => k ≤ c.count

/-- Memory after `data` is stored at `a`. -/
def storeBytes (mem : Nat → UInt8) (a : Nat) (data : List UInt8) : Nat → UInt8 :=
  fun x => if a ≤ x then data.getD (x - a) (mem x) else mem x

/-- Memory and the local variables of `readn`. -/
structure ReadLocals where
  mem : Nat → UInt8
  bytesToRead : Nat
  bytesRead : Nat

def readnLoop (p : Nat) : Loop ReadLocals IoCall ReadResult where
  guard l := decide (l.bytesToRead > l.bytesRead)
  call l := ⟨p + l.bytesRead, l.bytesToRead⟩
  body l result :=
    match result with
    | .failed errno => if errno = .EAGAIN ∨ errno = .EWOULDBLOCK then .again l else .leave l
    | .bytes data =>
      if data.length = 0 then .leave l
      else .again ⟨storeBytes l.mem (p + l.bytesRead) data, l.bytesToRead - data.length,
        l.bytesRead + data.length⟩

/-- The locals before the first pass. -/
def readnStart (mem : Nat → UInt8) (n : Nat) : ReadLocals := ⟨mem, n, 0⟩

/-- `readn(sd, p, n)`: the value it returns, memory afterwards and the results it left unread. -/
def readn (mem : Nat → UInt8) (p n : Nat) (results : List ReadResult) :
    Option (Int × (Nat → UInt8) × List ReadResult) :=
  ((readnLoop p).run (readnStart mem n) results).map
    (fun x => (if x.1.bytesRead < x.1.bytesToRead then -1 else 0, x.1.mem, x.2))

end RemoteMemoryPool
