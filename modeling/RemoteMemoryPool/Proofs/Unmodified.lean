import RemoteMemoryPool.Proofs.Coherence
import RemoteMemoryPool.Proofs.Transparency

/-!
# Unmodified programs on remote memory

What the preload library is for: a program that knows nothing of remote memory allocates with
`malloc` and reads back what it has stored. `unmodified_loads_latest` says so for the programs
that keep to the discipline of `Coherence`, from the start of the process and with whatever the
other threads and the failed attempts to connect do in between. The program is followed by a
session of the client: an act under the library is an event of the session or none at all.
-/

namespace RemoteMemoryPool.Proofs

open Interaction Transition

/-! ### Programs under the library -/

/-- A program under the library, the regions `malloc` has given to it, and the memory it believes
to have. -/
structure Preloaded where
  sys : System
  regions : List Region
  memory : Nat → UInt8

def Preloaded.start (mem : Nat → UInt8) : Preloaded := ⟨System.start mem, [], fun _ => 0⟩

/-- What a thread of the program does: a `malloc` that gets a remote region, one that does not,
`free`, and the accesses to remote regions. -/
inductive ProgramEvent
  | remote (env : Env) (size : Nat) (region : Region)
  | unserved (env : Env) (size : Nat)
  | free (env : Env) (ptr : Nat)
  | load (env : Env) (region : Region) (addr : Nat) (value : UInt8)
  | store (env : Env) (region : Region) (addr : Nat) (value : UInt8)

abbrev askedPages (size : Nat) : UInt32 := UInt32.ofNat (Preload.mallocPages size)

/-- What the client has to do for it. -/
def ProgramEvent.onClient : ProgramEvent → Option Event
  | .remote env size region => some (.alloc env (askedPages size) region)
  | .load env region addr value => some (.load env region addr value)
  | .store env region addr value => some (.store env region addr value)
  | _ => none

/-- A call of `malloc` is not for remote memory: the connection is refused, or another thread has
connected. -/
def Unserved (env : Env) (s : System) : Prop :=
  (s.globals.rmpFd = -1 ∧ (env.socket < 0 ∨ env.connect < 0)) ∨
    (s.globals.rmpFd ≠ -1 ∧ env.pthreadSelf ≠ s.globals.mainthreadId)

/-- The acts of the threads, one after another. Every remote allocation succeeds, and the handler
thread it starts maps the static page. -/
inductive Preloaded.Step (c : Preloaded) : ProgramEvent → Preloaded → Prop
  | remote {env : Env} {size : Nat} {region : Region} {x : Exchange} {sys sys' : System}
      (hserved : ¬Unserved env c.sys) (hg : Grants env (askedPages size) region.startAddr c.sys)
      (h : c.sys.execute env (Preload.malloc size) = some (.addr region.startAddr, sys))
      (hpage : sys.execute env Uffdman.createPage = some ((), sys'))
      (hx : sys'.log.getLast? = some x) (hh : region.hndl = x.reply.hndl)
      (hn : region.npages = askedPages size) (hu : region.uffd = env.userfaultfd) :
      Step c (.remote env size region) ⟨sys', c.regions ++ [region], c.memory⟩
  | unserved {env : Env} {size : Nat} {r : Client.AllocResult} {sys : System}
      (hno : Unserved env c.sys) (h : c.sys.execute env (Preload.malloc size) = some (r, sys)) :
      Step c (.unserved env size) { c with sys := sys }
  | free {env : Env} {ptr : Nat} {sys : System}
      (h : c.sys.execute env (Preload.free ptr) = some ((), sys)) :
      Step c (.free env ptr) { c with sys := sys }
  | load {env : Env} {addr : Nat} {value : UInt8} {sys : System} {r : Region} (hr : r ∈ c.regions)
      (hin : r.Contains addr) (h : c.sys.load env addr = some (value, sys)) :
      Step c (.load env r addr value) { c with sys := sys }
  | store {env : Env} {addr : Nat} {value : UInt8} {sys : System} {r : Region} (hr : r ∈ c.regions)
      (hin : r.Contains addr) (h : c.sys.store env addr value = some sys) :
      Step c (.store env r addr value)
        { c with sys := sys, memory := Function.update c.memory addr value }

/-! ### The session behind a program -/

/-- The session of the client that has done what the program needed. Until a connection is made,
nothing has been done. -/
inductive Behind (mem : Nat → UInt8) (c : Preloaded) : Session → Prop
  | unconnected {hooked : Bool} (hs : SeenAs c.sys ⟨hooked, none, System.start mem⟩)
      (hr : c.regions = []) (hm : c.memory = fun _ => 0) : Behind mem c (Session.init mem)
  | connected {t : Nat} {sys : System} (hs : SeenAs c.sys ⟨true, some t, sys⟩) :
      Behind mem c ⟨sys, c.regions, c.regions, c.memory⟩

lemma start_behind (mem : Nat → UInt8) : Behind mem (Preloaded.start mem) (Session.init mem) :=
  .unconnected (start_seenAs mem) rfl rfl

section Behind

variable {mem : Nat → UInt8} {c c' : Preloaded} {σ : Session} {env : Env}

lemma execute_socket {u : System} : u.execute env Client.socket = some (env.socket, u) := rfl

lemma execute_connect {u : System} : u.execute env Client.connect = some (env.connect, u) := rfl

lemma execute_rmpInit_refused {u : System} (hc : env.socket < 0 ∨ env.connect < 0) :
    u.execute env Client.rmpInit = some (-1, u) := by
  unfold Client.rmpInit
  rw [execute_bind, execute_socket, Option.bind_some]
  by_cases hs : env.socket < 0
  · rw [if_pos hs, execute_pure]
  · have hc := hc.resolve_left hs
    rw [if_neg hs, execute_bind, execute_connect, Option.bind_some, if_pos hc, execute_pure]

lemma start_rmpInit (hc : ¬(env.socket < 0 ∨ env.connect < 0)) :
    (System.start mem).execute env Client.rmpInit =
      some (0, resting false (-1) 0 (System.init mem)) := by
  obtain ⟨hs, hc⟩ := not_or.mp hc
  unfold Client.rmpInit
  rw [execute_bind, execute_socket, Option.bind_some, if_neg hs, execute_bind, execute_connect,
    Option.bind_some, if_neg hc]
  rfl

lemma SeenAs.of_onSystem {s u : System} {o : Overlay} (ho : o.locked = none) {hooked : Bool}
    {main : Option Nat} (h : SeenAs s ⟨hooked, main, o.onSystem u⟩) :
    SeenAs s ⟨hooked, main, u⟩ where
  same := by
    have hsame := h.same
    unfold Overlay.onSystem at hsame
    dsimp only at hsame
    rw [ho] at hsame
    exact hsame
  unlocked := h.unlocked
  hooked := h.hooked
  idle := h.idle
  unconnected := h.unconnected
  connected := h.connected

lemma rel_some {α β : Type} {R : α → β → Prop} {x : α} {z : Option β}
    (h : Option.Rel R (some x) z) : ∃ y, z = some y ∧ R x y := by
  cases h with
  | some h => exact ⟨_, rfl, h⟩

lemma remote_eq_some {size t : Nat} {u : System} {r : Client.AllocResult} {d : Direct}
    (h : Direct.remote env size t u = some (.pointer r, d)) :
    ∃ v, u.execute env (Client.rmpAlloc (askedPages size)) = some (r, v) ∧
      d = ⟨true, some t, v⟩ := by
  obtain ⟨⟨r', v⟩, hx, hy⟩ := Option.map_eq_some_iff.mp h
  obtain ⟨hr, hd⟩ := Prod.ext_iff.mp hy
  obtain rfl : r' = r := Observation.pointer.inj hr
  exact ⟨v, hx, hd.symm⟩

lemma malloc_unconnected {hooked : Bool} {size : Nat} {u : System} {y : Observation × Direct}
    (h : Direct.malloc env size ⟨hooked, none, u⟩ = some y) :
    Direct.connect env size u = some y := by
  unfold Direct.malloc at h
  by_cases hh : hooked = true ∨ env.dlsym = true
  · rwa [if_pos hh] at h
  · rw [if_neg hh] at h
    exact absurd h (by simp)

lemma malloc_connected (size t : Nat) (u : System) :
    Direct.malloc env size ⟨true, some t, u⟩ =
      if env.pthreadSelf = t then Direct.remote env size t u
      else some (.pointer (.addr env.stdlibMalloc), ⟨true, some t, u⟩) := by
  unfold Direct.malloc
  rw [if_pos (Or.inl rfl)]

lemma SeenAs.malloc {s : System} {d : Direct} (hs : SeenAs s d) {size : Nat}
    {r : Client.AllocResult} {sys : System}
    (h : s.execute env (Preload.malloc size) = some (r, sys)) :
    ∃ d', d.malloc env size = some (.pointer r, d') ∧ SeenAs sys d' := by
  have halike : Option.Rel Alike ((s.execute env (Preload.malloc size)).map _) _ :=
    malloc_alike hs size
  rw [h] at halike
  obtain ⟨⟨o, d'⟩, hy, ho, hseen⟩ := rel_some halike
  obtain rfl : Observation.pointer r = o := ho
  exact ⟨d', hy, hseen⟩

lemma Behind.malloc (hb : Behind mem c σ) {size : Nat} {r : Client.AllocResult} {sys : System}
    (hserved : ¬Unserved env c.sys)
    (h : c.sys.execute env (Preload.malloc size) = some (r, sys)) :
    ∃ t u, σ.sys.execute env (Client.rmpAlloc (askedPages size)) = some (r, u) ∧
      SeenAs sys ⟨true, some t, u⟩ := by
  cases hb with
  | unconnected hs hr hm =>
    obtain ⟨d', hd, hseen⟩ := hs.malloc h
    have hc : ¬(env.socket < 0 ∨ env.connect < 0) :=
      fun hc => hserved (Or.inl ⟨hs.unconnected rfl, hc⟩)
    have hconnect := malloc_unconnected hd
    rw [Direct.connect, start_rmpInit hc, Option.bind_some,
      if_neg (show ¬(0 : Int) = -1 by decide)] at hconnect
    obtain ⟨v, hv, rfl⟩ := remote_eq_some hconnect
    rw [execute_onSystem (ignores_rmpAlloc _)] at hv
    obtain ⟨x, hx, he⟩ := Option.map_eq_some_iff.mp hv
    obtain ⟨rfl, rfl⟩ := Prod.ext_iff.mp he
    exact ⟨_, x.2, hx, hseen.of_onSystem rfl⟩
  | @connected t sys₀ hs =>
    obtain ⟨-, hfd, ht⟩ := hs.connected t rfl
    have hself : env.pthreadSelf = t := by
      by_contra hne
      exact hserved (Or.inr ⟨hfd, fun he => hne (he.trans ht)⟩)
    obtain ⟨d', hd, hseen⟩ := hs.malloc h
    rw [malloc_connected, if_pos hself] at hd
    obtain ⟨v, hv, rfl⟩ := remote_eq_some hd
    exact ⟨t, v, hv, hseen⟩

lemma Behind.malloc_unserved (hb : Behind mem c σ) {size : Nat} {r : Client.AllocResult}
    {sys : System} (hno : Unserved env c.sys)
    (h : c.sys.execute env (Preload.malloc size) = some (r, sys)) :
    Behind mem { c with sys := sys } σ := by
  cases hb with
  | unconnected hs hr hm =>
    obtain ⟨d', hd, hseen⟩ := hs.malloc h
    have hc : env.socket < 0 ∨ env.connect < 0 := by
      rcases hno with ⟨-, hc⟩ | ⟨hfd, -⟩
      · exact hc
      · exact absurd (hs.unconnected rfl) hfd
    have hconnect := malloc_unconnected hd
    rw [Direct.connect, execute_rmpInit_refused hc, Option.bind_some, if_pos rfl] at hconnect
    obtain ⟨-, rfl⟩ := Prod.ext_iff.mp (Option.some.inj hconnect)
    exact .unconnected hseen hr hm
  | @connected t sys₀ hs =>
    obtain ⟨-, hfd, ht⟩ := hs.connected t rfl
    have hother : ¬env.pthreadSelf = t := by
      rcases hno with ⟨hfd', -⟩ | ⟨-, hne⟩
      · exact absurd hfd' hfd
      · exact fun he => hne (he.trans ht.symm)
    obtain ⟨d', hd, hseen⟩ := hs.malloc h
    rw [malloc_connected, if_neg hother] at hd
    obtain ⟨-, rfl⟩ := Prod.ext_iff.mp (Option.some.inj hd)
    exact Behind.connected (c := { c with sys := sys }) hseen

lemma Behind.believes (hb : Behind mem c σ) :
    σ.allocated = c.regions ∧ σ.regions = c.regions ∧ σ.memory = c.memory := by
  cases hb with
  | unconnected hs hr hm => exact ⟨hr.symm, hr.symm, hm.symm⟩
  | connected hs => exact ⟨rfl, rfl, rfl⟩

lemma grants_congr {s s' : System} {npages : UInt32} {a : Nat} (hg : Grants env npages a s)
    (hmapped : s'.mapped = s.mapped) (hopen : s'.openFds = s.openFds)
    (hhandler : s'.handlerOf = s.handlerOf) (hhost : s'.host = s.host) :
    Grants env npages a s' where
  mmap := hg.mmap
  aligned := hg.aligned
  bound := hg.bound
  unused := hmapped ▸ hg.unused
  uffd_range := hg.uffd_range
  uffd_unused := hopen ▸ hg.uffd_unused
  api := hg.api
  register := hg.register
  create := hg.create
  tid := hhandler ▸ hg.tid
  serverLen := hg.serverLen
  serverMmap := hg.serverMmap
  serverAnswer := hhost ▸ hg.serverAnswer

lemma Behind.grants (hb : Behind mem c σ) {npages : UInt32} {a : Nat}
    (hg : Grants env npages a c.sys) : Grants env npages a σ.sys := by
  cases hb with
  | unconnected hs hr hm =>
    rw [← hs.same] at hg
    exact grants_congr hg rfl rfl rfl rfl
  | connected hs =>
    rw [← hs.same] at hg
    exact grants_congr hg rfl rfl rfl rfl

lemma SeenAs.act {s : System} {d : Direct} (hs : SeenAs s d) {e : Env × ProgramAct}
    (hd : Direct.act e d = (System.act e d.sys).map (fun x => (x.1, { d with sys := x.2 })))
    {o : Observation} {sys : System} (h : System.act e s = some (o, sys)) :
    ∃ u, System.act e d.sys = some (o, u) ∧ SeenAs sys { d with sys := u } := by
  have halike := act_alike e s d hs
  rw [h, hd] at halike
  obtain ⟨y, hy, hobs, hseen⟩ := rel_some halike
  obtain ⟨⟨o', u⟩, hx, rfl⟩ := Option.map_eq_some_iff.mp hy
  obtain rfl : o = o' := hobs
  exact ⟨u, hx, hseen⟩

lemma SeenAs.createPage {s : System} {d : Direct} (hs : SeenAs s d) {sys : System}
    (h : s.execute env Uffdman.createPage = some ((), sys)) :
    ∃ u, d.sys.execute env Uffdman.createPage = some ((), u) ∧ SeenAs sys { d with sys := u } := by
  have hact : System.act (env, .handlerStart) s = some (.done, sys) := by simp [System.act, h]
  obtain ⟨u, hu, hseen⟩ := hs.act rfl hact
  obtain ⟨x, hx, he⟩ := Option.map_eq_some_iff.mp hu
  obtain ⟨-, rfl⟩ := Prod.ext_iff.mp he
  exact ⟨x.2, hx, hseen⟩

lemma SeenAs.load {s : System} {d : Direct} (hs : SeenAs s d) {addr : Nat} {value : UInt8}
    {sys : System} (h : s.load env addr = some (value, sys)) :
    ∃ u, d.sys.load env addr = some (value, u) ∧ SeenAs sys { d with sys := u } := by
  have hact : System.act (env, .load addr) s = some (.value value, sys) := by simp [System.act, h]
  obtain ⟨u, hu, hseen⟩ := hs.act rfl hact
  obtain ⟨⟨v, w⟩, hx, he⟩ := Option.map_eq_some_iff.mp hu
  obtain ⟨hv, rfl⟩ := Prod.ext_iff.mp he
  obtain rfl : v = value := Observation.value.inj hv
  exact ⟨w, hx, hseen⟩

lemma SeenAs.store {s : System} {d : Direct} (hs : SeenAs s d) {addr : Nat} {value : UInt8}
    {sys : System} (h : s.store env addr value = some sys) :
    ∃ u, d.sys.store env addr value = some u ∧ SeenAs sys { d with sys := u } := by
  have hact : System.act (env, .store addr value) s = some (.done, sys) := by simp [System.act, h]
  obtain ⟨u, hu, hseen⟩ := hs.act rfl hact
  obtain ⟨w, hw, he⟩ := Option.map_eq_some_iff.mp hu
  obtain ⟨-, rfl⟩ := Prod.ext_iff.mp he
  exact ⟨w, hw, hseen⟩

/-- An act of the program is an event of the session, or nothing to it. -/
lemma Behind.step (hb : Behind mem c σ) {e : ProgramEvent} (h : Preloaded.Step c e c') :
    (e.onClient = none ∧ Behind mem c' σ) ∨
      ∃ e' σ', e.onClient = some e' ∧ Session.Step σ e' σ' ∧ Behind mem c' σ' := by
  cases h with
  | @remote env size region x sys sys' hserved hg h hpage hx hh hn hu =>
    obtain ⟨t, u, halloc, hseen⟩ := hb.malloc hserved h
    obtain ⟨v, hv, hseen'⟩ := hseen.createPage hpage
    have hsys : σ.sys.alloc env (askedPages size) = some (.addr region.startAddr, v) := by
      simp [System.alloc, halloc, hv]
    have hlog : v.log.getLast? = some x := by
      rw [← hx, ← hseen'.same]
      rfl
    obtain ⟨hallocated, hregions, hmemory⟩ := hb.believes
    refine .inr ⟨_, _, rfl, Session.Step.alloc (hb.grants hg) hsys hlog hh hn hu, ?_⟩
    rw [hallocated, hregions, hmemory]
    exact Behind.connected (c := ⟨sys', c.regions ++ [region], c.memory⟩) hseen'
  | unserved hno h => exact .inl ⟨rfl, hb.malloc_unserved hno h⟩
  | @free env ptr sys h =>
    obtain rfl : c.sys = sys := congrArg Prod.snd (Option.some.inj h)
    exact .inl ⟨rfl, hb⟩
  | @load env addr value sys r hr hin h =>
    cases hb with
    | unconnected hs hnone hm => exact absurd hr (by simp [hnone])
    | connected hs =>
      obtain ⟨u, hu, hseen⟩ := hs.load h
      refine .inr ⟨_, _, rfl, Session.Step.load hr hin hu, ?_⟩
      exact Behind.connected (c := { c with sys := sys }) hseen
  | @store env addr value sys r hr hin h =>
    cases hb with
    | unconnected hs hnone hm => exact absurd hr (by simp [hnone])
    | connected hs =>
      obtain ⟨u, hu, hseen⟩ := hs.store h
      refine .inr ⟨_, _, rfl, Session.Step.store hr hin hu, ?_⟩
      exact Behind.connected
        (c := { c with sys := sys, memory := Function.update c.memory addr value }) hseen

lemma Behind.completes (hb : Behind mem c σ) (h : Completes σ) {r : Region} (hr : r ∈ c.regions)
    {addr : Nat} (hin : r.Contains addr) (env : Env) (value : UInt8) :
    (c.sys.load env addr).isSome ∧ (c.sys.store env addr value).isSome := by
  cases hb with
  | unconnected hs hnone hm => exact absurd hr (by simp [hnone])
  | connected hs =>
    obtain ⟨hload, hstore⟩ := (h r hr env).2 addr hin
    rw [← hs.same, load_onSystem rfl, store_onSystem rfl, Option.isSome_map, Option.isSome_map]
    exact ⟨hload, hstore value⟩

end Behind

/-! ### Coherence -/

/-- The events of the session behind a run. -/
def clientEvents (tr : List (Preloaded × ProgramEvent)) : List Event :=
  tr.filterMap (fun x => x.2.onClient)

lemma clientEvents_hidden {tr : List (Preloaded × ProgramEvent)} {c : Preloaded} {e : ProgramEvent}
    (h : e.onClient = none) : clientEvents (tr ++ [(c, e)]) = clientEvents tr := by
  simp [clientEvents, h]

lemma clientEvents_snoc {tr : List (Preloaded × ProgramEvent)} {c : Preloaded} {e : ProgramEvent}
    {e' : Event} (h : e.onClient = some e') :
    clientEvents (tr ++ [(c, e)]) = clientEvents tr ++ [e'] := by
  simp [clientEvents, h]

/-- The session behind a run is coherent with what the program believes. -/
def Sound (mem : Nat → UInt8) (c : Preloaded) (events : List Event) : Prop :=
  ∃ σ st p, Behind mem c σ ∧ Tied σ st p ∧ SettledOn σ p (residencies events)

section Runs

variable {mem : Nat → UInt8} {c c' : Preloaded} {events : List Event}

lemma start_sound (mem : Nat → UInt8) : Sound mem (Preloaded.start mem) [] := by
  refine ⟨Session.init mem, _, _, start_behind mem, init_tied mem, ?_⟩
  constructor <;> simp [pagesOf, Session.init, emptyPager, residencies]

lemma Sound.step {e : ProgramEvent} (h : Sound mem c events) (hs : Preloaded.Step c e c')
    {e' : Event} (he : e.onClient = some e') (hsmall : e'.Small)
    (hobey : Obeys (residencies events) e') :
    Sound mem c' (events ++ [e']) ∧
      ∀ env r addr value, e' = .load env r addr value → value = c.memory addr := by
  obtain ⟨σ, st, p, hb, ht, hset⟩ := h
  rcases hb.step hs with ⟨hnone, -⟩ | ⟨e'', σ', he'', hstep, hb'⟩
  · exact absurd (hnone.symm.trans he) (by simp)
  · obtain rfl : e'' = e' := Option.some.inj (he''.symm.trans he)
    obtain ⟨⟨st', ht'⟩, -⟩ := ht.step hsmall hstep
    refine ⟨⟨σ', st', _, hb', ht', ?_⟩, ?_⟩
    · have hnext := ht.settled_step hset hobey hstep
      simpa [residencies] using hnext
    · rintro env r addr value rfl
      rw [← hb.believes.2.2]
      exact ht.load_latest hset hobey hstep

lemma Sound.hidden {e : ProgramEvent} (h : Sound mem c events) (hs : Preloaded.Step c e c')
    (he : e.onClient = none) : Sound mem c' events := by
  obtain ⟨σ, st, p, hb, ht, hset⟩ := h
  rcases hb.step hs with ⟨-, hb'⟩ | ⟨e', σ', he', -, -⟩
  · exact ⟨σ, st, p, hb', ht, hset⟩
  · exact absurd (he.symm.trans he') (by simp)

lemma Sound.completes (h : Sound mem c events) {r : Region} (hr : r ∈ c.regions) {addr : Nat}
    (hin : r.Contains addr) (env : Env) (value : UInt8) :
    (c.sys.load env addr).isSome ∧ (c.sys.store env addr value).isSome := by
  obtain ⟨σ, st, p, hb, ht, -⟩ := h
  exact hb.completes ht.linked.completes hr hin env value

/-- A run that obeys the discipline is sound, and its loads return the latest values. -/
lemma sound_run {tr : List (Preloaded × ProgramEvent)}
    (h : Run Preloaded.Step (Preloaded.start mem) tr c) (hsmall : ∀ e ∈ clientEvents tr, e.Small)
    (hd : Disciplined (clientEvents tr)) :
    Sound mem c (clientEvents tr) ∧
      ∀ x ∈ tr, ∀ env r addr value, x.2 = .load env r addr value → value = x.1.memory addr := by
  induction h with
  | nil => exact ⟨start_sound mem, by simp⟩
  | @snoc c c' tr e hr hs ih =>
    cases he : e.onClient with
    | none =>
      rw [clientEvents_hidden he] at hsmall hd ⊢
      obtain ⟨hsound, hloads⟩ := ih hsmall hd
      refine ⟨hsound.hidden hs he, forall_mem_snoc.mpr ⟨hloads, ?_⟩⟩
      rintro env r addr value rfl
      simp [ProgramEvent.onClient] at he
    | some e' =>
      rw [clientEvents_snoc he] at hsmall hd ⊢
      rw [forall_mem_snoc] at hsmall
      obtain ⟨hd, hobey⟩ := disciplined_concat.mp hd
      obtain ⟨hsound, hloads⟩ := ih hsmall.1 hd
      obtain ⟨hsound', hvalue⟩ := hsound.step hs he hsmall.2 hobey
      refine ⟨hsound', forall_mem_snoc.mpr ⟨hloads, ?_⟩⟩
      rintro env r addr value rfl
      exact hvalue env r addr value (Option.some.inj he).symm

end Runs

/-- From the start of the process, in every order of the acts of the threads of an unmodified
program under the preload library, with connections refused before one is made and with any
number of remote regions of fewer than `2 ^ 20` pages: if the accesses to remote memory keep to
the discipline, every load returns the latest value stored at its address (0 if there is none),
and every access to a remote region completes. -/
theorem unmodified_loads_latest {mem : Nat → UInt8} {tr : List (Preloaded × ProgramEvent)}
    {c : Preloaded} (h : Run Preloaded.Step (Preloaded.start mem) tr c)
    (hsmall : ∀ e ∈ clientEvents tr, e.Small) (hd : Disciplined (clientEvents tr)) :
    (∀ x ∈ tr, ∀ env r addr value, x.2 = .load env r addr value → value = x.1.memory addr) ∧
      ∀ r ∈ c.regions, ∀ addr, r.Contains addr → ∀ env value,
        (c.sys.load env addr).isSome ∧ (c.sys.store env addr value).isSome := by
  obtain ⟨hsound, hloads⟩ := sound_run h hsmall hd
  refine ⟨hloads, ?_⟩
  intro r hr addr hin env value
  exact hsound.completes hr hin env value

/-- A kernel of the client while its server does not listen. -/
def refusingEnv : Env := { firstEnv with connect := -1 }

/-- The process after a first `malloc`, when the server did not listen. -/
def refusedSystem : System := resting true (-1) 0 (System.start fun _ => 0)

lemma refused_grants : Grants firstEnv (askedPages 5000) 4096 refusedSystem :=
  grants_congr init_grants rfl rfl rfl rfl

lemma refused_served : ¬Unserved firstEnv refusedSystem := by
  rintro (⟨-, h⟩ | ⟨h, -⟩)
  · exact absurd h (by decide)
  · exact h rfl

lemma first_malloc : refusedSystem.execute firstEnv (Preload.malloc 5000) =
    some (.addr 4096, resting true 0 0 { firstSystem with page := none }) := rfl

lemma first_remote_run : Run Preloaded.Step (Preloaded.start fun _ => 0)
    [(Preloaded.start fun _ => 0, .unserved refusingEnv 5000),
      (⟨refusedSystem, [], fun _ => 0⟩, .remote firstEnv 5000 firstRegion)]
    ⟨resting true 0 0 firstSystem, [firstRegion], fun _ => 0⟩ := by
  have hrefused : Preloaded.Step (Preloaded.start fun _ => 0) (.unserved refusingEnv 5000)
      ⟨refusedSystem, [], fun _ => 0⟩ :=
    .unserved (r := .null) (Or.inl ⟨rfl, Or.inr (by decide)⟩) rfl
  have hremote : Preloaded.Step ⟨refusedSystem, [], fun _ => 0⟩ (.remote firstEnv 5000 firstRegion)
      ⟨resting true 0 0 firstSystem, [firstRegion], fun _ => 0⟩ :=
    .remote refused_served refused_grants first_malloc rfl rfl rfl rfl rfl
  exact (Run.single hrefused).snoc hremote

/-- What the client has to do for it. -/
abbrev firstEvents : List Event := [.alloc firstEnv (askedPages 5000) firstRegion]

lemma first_remote_small : ∀ e ∈ firstEvents, e.Small := by
  intro e he
  obtain rfl := List.mem_singleton.mp he
  change (askedPages 5000).toNat < 2 ^ 20
  decide

lemma first_remote_disciplined : Disciplined ([] ++ firstEvents) := by
  have hnil : Disciplined [] := by
    intro before e hp
    simp at hp
  exact disciplined_concat.mpr ⟨hnil, trivial⟩

lemma firstRegion_wellFormed : firstRegion.WellFormed :=
  (run_linked first_run).wf firstRegion (List.mem_singleton.mpr rfl)

lemma first_store_disciplined :
    Disciplined ([] ++ firstEvents ++ [.store firstEnv firstRegion 4096 7]) ∧
      residencies (firstEvents ++ [.store firstEnv firstRegion 4096 7]) 4096 = filling 1 := by
  constructor
  · exact disciplined_concat.mpr ⟨first_remote_disciplined, fun t ht => by cases ht⟩
  · rw [residencies_concat]
    exact filling_tracked (r := firstRegion) (n := 0) firstRegion_wellFormed rfl 7

/-- A program that is refused a connection at first stores a byte and loads it again. -/
theorem first_program_loads_latest :
    ∃ tr c, Run Preloaded.Step (Preloaded.start fun _ => 0) tr c ∧
      tr.map Prod.snd = [.unserved refusingEnv 5000, .remote firstEnv 5000 firstRegion,
        .store firstEnv firstRegion 4096 7, .load firstEnv firstRegion 4096 7] ∧
      c.regions = [firstRegion] ∧ (c.sys.load firstEnv 8192).isSome := by
  have hs : (firstSystem.store firstEnv 4096 7).isSome = true := rfl
  have hv : ((stored firstEnv 4096 7 firstSystem).load firstEnv 4096).map Prod.fst = some 7 := by
    decide +kernel
  have hmem : firstRegion ∈ [firstRegion] := List.mem_singleton.mpr rfl
  have hstore : (resting true 0 0 firstSystem).store firstEnv 4096 7 =
      some (resting true 0 0 (stored firstEnv 4096 7 firstSystem)) := by
    rw [store_onSystem rfl, store_stored _ _ _ _ hs, Option.map_some]
  have hload : (resting true 0 0 (stored firstEnv 4096 7 firstSystem)).load firstEnv 4096 =
      some (7, resting true 0 0 (loaded firstEnv 4096 (stored firstEnv 4096 7 firstSystem))) := by
    rw [load_onSystem rfl, load_loaded _ _ _ hv, Option.map_some]
  have hrun := (first_remote_run.snoc (.store hmem firstRegion_contains.1 hstore)).snoc
    (.load hmem firstRegion_contains.1 hload)
  have hsmall : ∀ e ∈ firstEvents ++ [.store firstEnv firstRegion 4096 7] ++
      [.load firstEnv firstRegion 4096 7], e.Small :=
    forall_mem_snoc.mpr ⟨forall_mem_snoc.mpr ⟨first_remote_small, trivial⟩, trivial⟩
  obtain ⟨hdisc, hres⟩ := first_store_disciplined
  have hdisc' : Disciplined (firstEvents ++ [.store firstEnv firstRegion 4096 7] ++
      [.load firstEnv firstRegion 4096 7]) := by
    refine disciplined_concat.mpr ⟨hdisc, fun t ht => ?_⟩
    obtain rfl := Option.some.inj (hres.symm.trans ht)
    exact fun _ => rfl
  have hall := (unmodified_loads_latest hrun hsmall hdisc').2
  have hnext := hall firstRegion hmem 8192 firstRegion_contains.2 firstEnv 0
  exact ⟨_, _, hrun, rfl, rfl, hnext.1⟩

end RemoteMemoryPool.Proofs
