import RemoteMemoryPool.Model.Server

/-!
# Concurrent calls of the server

Each connection has a thread that calls `rmp::Server::handle` on the server all connections
share. The calls are interleaved operation by operation: an accessor holds its mutex for its
whole body, and `mmap`, `munmap` and `memcpy` are atomic as well.
-/

namespace RemoteMemoryPool

open Interaction

/-- The answers and next states of an operation: those of `ServerOp.exec` for an answer the
kernel may give. -/
def ServerOp.Effect (op : ServerOp) (w : Host) (r : op.Res) (w' : Host) : Prop :=
  ∃ os : Os, (∀ len, op = .mmap len → w.space.MmapAnswer len os.mmapAnswer) ∧ op.exec os w = (r, w')

section Calls

variable {ι : Type}

/-- Calls of `handle` and the server they share. -/
abbrev Calls (ι : Type) := Pool ι ServerOp.Res Host Packet

/-- One call for each packet, none of them begun. -/
def Calls.init (pkts : ι → Packet) (w : Host) : Calls ι := ⟨fun i => Server.handle (pkts i), w⟩

def Calls.Step [DecidableEq ι] (c : Calls ι) (a : Action ι ServerOp.Res) (c' : Calls ι) : Prop :=
  Pool.Step (fun _ op => op.Effect) c a c'

/-- The operations performed so far, each with the state it was performed in. -/
abbrev CallHistory (ι : Type) := List (Calls ι × Action ι ServerOp.Res)

/-- The operation a call performs next. -/
def nextOp : ServerM Packet → Option ServerOp
  | .pure _ => none
  | .call op _ => some op

/-- Every call has not begun or has returned. -/
def Calls.Quiescent (pkts : ι → Packet) (c : Calls ι) : Prop :=
  ∀ i, c.threads i = Server.handle (pkts i) ∨ ∃ reply, c.threads i = .pure reply

/-- The next operation of a call, if it has not returned; `os` answers the system calls. -/
def Calls.advance [DecidableEq ι] (os : Os) (c : Calls ι) (i : ι) :
    Option (Action ι ServerOp.Res × Calls ι) :=
  match c.threads i with
  | .pure _ => none
  | .call op next =>
    let x := op.exec os c.state
    some (⟨i, op, x.1⟩, ⟨Function.update c.threads i (next x.1), x.2⟩)

/-- The execution that lets the given calls perform one operation each, in this order. -/
def Calls.execute [DecidableEq ι] (c : Calls ι) : List (Os × ι) → Option (CallHistory ι × Calls ι)
  | [] => some ([], c)
  | (os, i) :: order =>
    (c.advance os i).bind (fun x =>
      (Calls.execute x.2 order).map (fun y => ((c, x.1) :: y.1, y.2)))

end Calls

end RemoteMemoryPool
