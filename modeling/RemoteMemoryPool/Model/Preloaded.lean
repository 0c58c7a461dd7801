import RemoteMemoryPool.Model.ClientThreads
import RemoteMemoryPool.Model.System

/-!
# A program under the preload library

A program that knows nothing of remote memory: its threads call `malloc` and `free` and access
memory, one after another. `System.act` is what happens when `preloadlib.so` is loaded into its
process.
-/

namespace RemoteMemoryPool

/-- What the program does. A handler thread that an allocation has started gets to its loop. -/
inductive ProgramAct
  | malloc (size : Nat)
  | free (ptr : Nat)
  | load (addr : Nat)
  | store (addr : Nat) (value : UInt8)
  | handlerStart

/-- What the program gets to see. -/
inductive Observation
  | pointer (r : Client.AllocResult)
  | value (v : UInt8)
  | done

namespace System

/-- The process when the program starts, with a fresh server. -/
def start (mem : Nat → UInt8) : System := { System.init mem with globals := Shared.fresh.globals }

/-- One act of the program, by the thread `env.pthreadSelf`; `none` when it ends the process or
blocks for ever. -/
def act : Env × ProgramAct → System → Option (Observation × System)
  | (env, .malloc size), s =>
    (s.execute env (Preload.malloc size)).map (fun x => (.pointer x.1, x.2))
  | (env, .free ptr), s => (s.execute env (Preload.free ptr)).map (fun x => (.done, x.2))
  | (env, .load addr), s => (s.load env addr).map (fun x => (.value x.1, x.2))
  | (env, .store addr value), s => (s.store env addr value).map (fun s => (.done, s))
  | (env, .handlerStart), s => (s.execute env Uffdman.createPage).map (fun x => (.done, x.2))

end System

end RemoteMemoryPool
