import Protoactor.Actor.Spawn

/-!
# When the handlers are there

`Add` makes the process known, and `RegisterHandlers` comes after it. A thread that resolves
the id in between has a mailbox without handlers and may post to it at once; a thread
that resolves it later cannot do any harm.
-/

namespace Protoactor.Actor.Spawn
set_option autoImplicit false
open Lib

variable {P U K σ C : Type} {cfg : Spawner U K σ C} {s s' : State P U K σ C} {l : Label U K}

/-! ## Steps of the mailbox -/

/-- What a step of the mailbox can be: a call of the null dispatcher, a step of the mailbox
alone, the call of the context for a message, or the end of that call. -/
inductive Mail (cfg : Spawner U K σ C) (s : State P U K σ C) : Interleaving.Label (Ptr U K) → State P U K σ C → Prop where
  | crash {n : Nat} (dispatching : s.dispatching n = true) (missing : s.registered ≠ .handlers) :
      Mail cfg s (.poster n) { s with crashed := true }
  | alone {m : Interleaving.Label (Ptr U K)} {mailbox : Interleaving.State (Ptr U K)}
      (move : Interleaving.step cfg.dispatcher s.mailbox m = some mailbox) (noPost : ∀ k message, m ≠ .post k message)
      (quiet : ∀ n w c, m = .worker n ∨ m = .raise n → s.mailbox.calls[n]? = some w → s.context = some c →
        ∀ k message, w.pc ≠ .invoke k message ∧ w.pc ≠ .invoking k message) :
      Mail cfg s m { s with mailbox := mailbox }
  | call {n : Nat} {w : Worker (Ptr U K)} {k : Kind} {message : Ptr U K} {c c' : ActorContext U K σ C}
      {mailbox : Interleaving.State (Ptr U K)} (move : Interleaving.step cfg.dispatcher s.mailbox (.worker n) = some mailbox)
      (here : s.mailbox.calls[n]? = some w) (pc : w.pc = .invoke k message) (context : s.context = some c)
      (called : ActorContext.step cfg.props cfg.beh c (callOf k message) = some c') :
      Mail cfg s (.worker n) { s with mailbox := mailbox, context := some c' }
  | handled {m : Interleaving.Label (Ptr U K)} {n : Nat} {w : Worker (Ptr U K)} {k : Kind} {message : Ptr U K}
      {c : ActorContext U K σ C} {mailbox : Interleaving.State (Ptr U K)}
      (move : Interleaving.step cfg.dispatcher s.mailbox m = some mailbox) (acts : m = .worker n ∨ m = .raise n)
      (here : s.mailbox.calls[n]? = some w) (pc : w.pc = .invoking k message) (context : s.context = some c) :
      Mail cfg s m { s with mailbox := mailbox, handled := s.handled ++ [(k, message)] }

theorem mailStep_cases {m : Interleaving.Label (Ptr U K)} (act : mailStep cfg s m = some s') : Mail cfg s m s' := by
  obtain ⟨mailbox, move, rest⟩ := Option.bind_eq_some_iff.1 act
  cases m with
  | post k message => cases rest
  | poster n =>
    dsimp only at rest
    split at rest
    · rename_i crash
      cases rest
      exact .crash crash.1 crash.2
    · cases rest
      exact .alone move nofun fun _ _ _ acts => by simp at acts
  | start | lose =>
    cases rest
    exact .alone move nofun fun _ _ _ acts => by simp at acts
  | worker n =>
    dsimp only at rest
    split at rest
    · rename_i call context
      obtain ⟨w, here, pc⟩ := Option.map_eq_some_iff.1 call
      obtain ⟨c', called, rfl⟩ := Option.map_eq_some_iff.1 rest
      exact .call move here pc context called
    · rename_i call context
      obtain ⟨w, here, pc⟩ := Option.map_eq_some_iff.1 call
      split at rest
      · cases rest
        exact .handled move (.inl rfl) here pc context
      · cases rest
    · rename_i noInvoke noInvoking
      cases rest
      refine .alone move nofun fun n' w c acts here context k message => ?_
      have same : n = n' := by simpa using acts
      subst same
      exact ⟨fun pc => noInvoke k message c (by rw [here, Option.map_some, pc]) context,
        fun pc => noInvoking k message c (by rw [here, Option.map_some, pc]) context⟩
  | raise n =>
    dsimp only at rest
    split at rest
    · rename_i call context
      obtain ⟨w, here, pc⟩ := Option.map_eq_some_iff.1 call
      split at rest
      · cases rest
        exact .handled move (.inr rfl) here pc context
      · cases rest
    · cases rest

/-- What a step of the mailbox leaves alone, and what it does otherwise. -/
structure Mailed (cfg : Spawner U K σ C) (s : State P U K σ C) (l : Interleaving.Label (Ptr U K))
    (s' : State P U K σ C) : Prop where
  spawner : s'.spawner = s.spawner
  registry : s'.registry = s.registry
  registered : s'.registered = s.registered
  resolved : s'.resolved = s.resolved
  outcome : (∃ n, l = .poster n ∧ s.dispatching n ∧ s.registered ≠ .handlers ∧ s' = { s with crashed := true }) ∨
    (Interleaving.step cfg.dispatcher s.mailbox l = some s'.mailbox ∧ s'.crashed = s.crashed ∧ ∀ k message, l ≠ .post k message)

theorem mailed {m : Interleaving.Label (Ptr U K)} (act : mailStep cfg s m = some s') : Mailed cfg s m s' := by
  cases mailStep_cases act with
  | @crash n dispatching missing => exact ⟨rfl, rfl, rfl, rfl, .inl ⟨n, rfl, dispatching, missing, rfl⟩⟩
  | alone move noPost quiet => exact ⟨rfl, rfl, rfl, rfl, .inr ⟨move, rfl, noPost⟩⟩
  | call move here pc context called => exact ⟨rfl, rfl, rfl, rfl, .inr ⟨move, rfl, nofun⟩⟩
  | handled move acts here pc context =>
    refine ⟨rfl, rfl, rfl, rfl, .inr ⟨move, rfl, fun k message post => ?_⟩⟩
    subst post
    exact acts.elim nofun nofun

/-- Posts are begun by threads, not by the mailbox. -/
theorem posts_of_step {h : Handlers} {m m' : Interleaving.State (Ptr U K)} {l : Interleaving.Label (Ptr U K)}
    (move : Interleaving.step h m l = some m') (noPost : ∀ k message, l ≠ .post k message) (none : m.posts = []) :
    m'.posts = [] := by
  cases Interleaving.step_cases move with
  | post k message => exact absurd rfl (noPost k message)
  | poster here act | dispatch here pc => simp [none] at here
  | start pending | lose pending | worker get here act | raise here inside => exact none

/-! ## Who can have the process -/

/-- The registry does not know the process. -/
structure Absent (r : ProcessRegistry (Target P)) : Prop where
  shards : ∀ b id, r.localPids b id ≠ some .spawned
  handlers : ∀ handler ∈ r.remoteHandlers, ∀ pid, handler pid ≠ some .spawned
  deadLetter : r.deadLetter ≠ .spawned

theorem absent_map (r : ProcessRegistry P) : Absent (r.map .other) := by
  refine ⟨fun b id => ?_, fun handler member pid => ?_, nofun⟩
  · simp [ProcessRegistry.map]
  · simp only [ProcessRegistry.map, List.mem_map] at member
    obtain ⟨handler', -, rfl⟩ := member
    simp

theorem Absent.get {r : ProcessRegistry (Target P)} (absent : Absent r) (pid : Option PID) : (r.get pid).1 ≠ .spawned := by
  unfold ProcessRegistry.get
  split
  · exact absent.deadLetter
  · split
    · split
      · rename_i process found
        obtain ⟨handler, member, answer⟩ := List.exists_of_findSome?_eq_some found
        rintro rfl
        exact absent.handlers handler member _ answer
      · exact absent.deadLetter
    · unfold ProcessRegistry.getLocal
      split
      · exact absent.deadLetter
      · rename_i process found
        rintro rfl
        exact absent.shards _ _ found

/-- `Add` has made the process known and `RegisterHandlers` has not returned. -/
def SpawnerPc.exposed : SpawnerPc → Bool
  | .setSelf | .setInvoker | .setDispatcher => true
  | _ => false

/-- `RegisterHandlers` has returned. -/
def SpawnerPc.registered : SpawnerPc → Bool
  | .postStarted | .posting _ => true
  | _ => false

/-- The step is not a `Get` that answers the process while it is exposed. -/
def Late (s : State P U K σ C) (l : Label U K) : Prop :=
  ∀ pid, l = .get pid → s.spawner.exposed = true → (s.registry.get pid).1 ≠ .spawned

/-- No post is made without the handlers, and no null dispatcher is called. -/
structure Ready (s : State P U K σ C) : Prop where
  handlers : s.mailbox.posts ≠ [] → s.registered = .handlers
  alive : s.crashed = false

structure Guarded (s : State P U K σ C) : Prop where
  ready : Ready s
  holders : .spawned ∈ s.resolved → s.registered = .handlers
  stored : s.spawner.registered = true ↔ s.registered = .handlers
  absent : s.spawner.registered = false → s.spawner.exposed = false → Absent s.registry

theorem guarded_start (r : ProcessRegistry P) : Guarded (start r : State P U K σ C) where
  ready := ⟨nofun, rfl⟩
  holders := nofun
  stored := ⟨nofun, nofun⟩
  absent := fun _ _ => absent_map r

/-- `Add` leaves the process out of the registry only by refusing it. -/
theorem absent_add {r r' : ProcessRegistry (Target P)} {id : String} (absent : Absent r)
    (refused : r.add .spawned id = (false, r')) : Absent r' := by
  unfold ProcessRegistry.add at refused
  split at refused
  · cases refused
    exact absent
  · cases refused

theorem guarded_spawner (guarded : Guarded s) (act : spawnerStep cfg s = some s') : Guarded s' := by
  obtain ⟨⟨handlers, alive⟩, holders, stored, absent⟩ := guarded
  unfold spawnerStep at act
  split at act
  · rename_i pc
    rw [pc] at stored absent
    split at act
    · cases act
      exact ⟨⟨handlers, alive⟩, holders, stored, fun _ _ => absent rfl rfl⟩
    · cases act
      exact ⟨⟨handlers, alive⟩, holders, stored, fun _ _ => absent rfl rfl⟩
  · rename_i pc
    rw [pc] at stored absent
    cases act
    exact ⟨⟨fun some => absurd rfl some, alive⟩, holders, stored, fun _ _ => absent rfl rfl⟩
  · rename_i pc
    rw [pc] at stored absent
    split at act
    · rename_i r refused
      cases act
      exact ⟨⟨handlers, alive⟩, holders, stored, fun _ _ => absent_add (absent rfl rfl) refused⟩
    · cases act
      exact ⟨⟨handlers, alive⟩, holders, stored, fun _ exposed => nomatch exposed⟩
  · rename_i pc
    rw [pc] at stored
    cases act
    exact ⟨⟨handlers, alive⟩, holders, stored, fun _ exposed => nomatch exposed⟩
  · rename_i pc
    rw [pc] at stored
    have earlier : s.registered ≠ .handlers := fun is => nomatch stored.2 is
    cases act
    exact ⟨⟨fun some => absurd (handlers some) earlier, alive⟩, fun member => absurd (holders member) earlier,
      ⟨nofun, nofun⟩, fun _ exposed => nomatch exposed⟩
  · cases act
    exact ⟨⟨fun _ => rfl, alive⟩, fun _ => rfl, ⟨fun _ => rfl, fun _ => rfl⟩, fun registered => nomatch registered⟩
  · rename_i pc
    rw [pc] at stored
    cases act
    exact ⟨⟨fun _ => stored.1 rfl, alive⟩, holders, ⟨fun _ => stored.1 rfl, fun _ => rfl⟩, fun registered => nomatch registered⟩
  · cases act
  · cases act
  · cases act

/-- Nobody holds the process before its handlers are stored, as long as no `Get` answers it
while it is exposed. -/
theorem guarded_keeps : Machine.Keeps (step cfg) Late (Guarded (P := P)) := by
  intro s l s' guarded late act
  have running : ¬ s.crashed = true := by simp [guarded.ready.alive]
  unfold step at act
  rw [if_neg running] at act
  have same := guarded
  obtain ⟨⟨handlers, alive⟩, holders, stored, absent⟩ := guarded
  cases l with
  | spawner => exact guarded_spawner same act
  | get pid =>
    cases act
    refine ⟨⟨handlers, alive⟩, fun member => ?_, stored, absent⟩
    rcases List.mem_append.1 member with old | new
    · exact holders old
    · have answered := (List.mem_singleton.1 new).symm
      by_cases registered : s.spawner.registered = true
      · exact stored.1 registered
      · by_cases exposed : s.spawner.exposed = true
        · exact absurd answered (late pid rfl exposed)
        · exact absurd answered ((absent (by simpa using registered) (by simpa using exposed)).get pid)
  | send n k message =>
    dsimp only at act
    split at act
    · cases act
    · rename_i here
      cases act
      have holds := holders (List.mem_of_getElem? here)
      exact ⟨⟨fun _ => holds, alive⟩, fun _ => holds, stored, absent⟩
    · cases act
      exact same
  | mail m =>
    obtain ⟨spawner, registry, registered, resolved, outcome⟩ := mailed act
    rcases outcome with ⟨n, -, dispatching, missing, -⟩ | ⟨move, crashed, noPost⟩
    · have some : s.mailbox.posts ≠ [] := by
        intro none
        simp [State.dispatching, none] at dispatching
      exact absurd (handlers some) missing
    · refine ⟨⟨fun some => ?_, crashed.trans alive⟩, ?_, ?_, ?_⟩
      · rw [registered]
        exact handlers fun none => some (posts_of_step move noPost none)
      · rwa [resolved, registered]
      · rwa [spawner, registered]
      · rwa [spawner, registry]
  | run =>
    obtain ⟨c, -, act⟩ := Option.bind_eq_some_iff.1 act
    obtain ⟨c', -, rfl⟩ := Option.map_eq_some_iff.1 act
    exact ⟨⟨handlers, alive⟩, holders, stored, absent⟩

/-- **No post without handlers**, in every run in which no `Get` answers the process between
`Add` and the end of `RegisterHandlers`. Where one does, the thread's post comes too early. -/
theorem handlers_first {r : ProcessRegistry P} {ls : List (Label U K)} (run : Machine.Run (step cfg) Late (start r) ls s) :
    Ready s ∧ ∀ pid, s.spawner.exposed = true → (s.registry.get pid).1 = .spawned → ∀ k message,
      ∃ s₁ s₂, step cfg s (.get pid) = some s₁ ∧ step cfg s₁ (.send s.resolved.length k message) = some s₂ ∧ ¬ Ready s₂ := by
  have guarded := run.keeps guarded_keeps (guarded_start r)
  refine ⟨guarded.ready, fun pid exposed answered k message => ?_⟩
  have alive := guarded.ready.alive
  have missing : s.registered ≠ .handlers := by
    intro is
    have registered := guarded.stored.2 is
    cases pc : s.spawner <;> simp [pc, SpawnerPc.exposed, SpawnerPc.registered] at exposed registered
  let told : State P U K σ C := { s with resolved := s.resolved ++ [.spawned] }
  refine ⟨told, told.post k message, by simp [step, alive, answered, told], by simp [step, alive, told], ?_⟩
  · intro ready
    exact missing (ready.handlers (by simp [State.post]))

theorem late_of_not_get (other : ∀ pid, l ≠ .get pid) : Late s l := fun pid same => absurd same (other pid)

theorem late_of_not_exposed (later : s.spawner.exposed = false) : Late s l := by
  intro pid _ exposed
  rw [later] at exposed
  cases exposed

/-- A thread that resolves the name when the handlers are stored. -/
theorem handlers_first_late : ∃ s, Machine.Run (step idleSpawner) Late (start emptyRegistry)
      (List.replicate 6 .spawner ++ [.get (some idlePid), .send 0 .user (.user 5)]) s ∧
    Ready s ∧ ∀ pid, s.spawner.exposed = true → (s.registry.get pid).1 = .spawned → ∀ k message,
      ∃ s₁ s₂, step idleSpawner s (.get pid) = some s₁ ∧
        step idleSpawner s₁ (.send s.resolved.length k message) = some s₂ ∧ ¬ Ready s₂ := by
  have run : ∃ s, Machine.Run (step idleSpawner) Late (start emptyRegistry)
      (List.replicate 6 Label.spawner ++ [Label.get (some idlePid), .send 0 .user (.user 5)]) s := by
    refine ⟨_, .cons rfl (late_of_not_get nofun) (.cons rfl (late_of_not_get nofun) (.cons rfl (late_of_not_get nofun)
      (.cons rfl (late_of_not_get nofun) (.cons rfl (late_of_not_get nofun) (.cons rfl (late_of_not_get nofun)
        (.cons rfl (late_of_not_exposed rfl) (.cons rfl (late_of_not_get nofun) (.nil _))))))))⟩
  obtain ⟨s, run⟩ := run
  exact ⟨s, run, handlers_first run⟩

/-- A thread resolves the name right after `Add` and posts: the null dispatcher is called. -/
theorem schedules_on_null : ¬ ∀ (ls : List (Label Nat Nat)) (s : State Unit Nat Nat Unit Unit),
    Machine.Run (step idleSpawner) Machine.free (start emptyRegistry) ls s → Ready s := by
  intro all
  have crash : (Machine.exec (step idleSpawner) ([Label.spawner, .spawner, .spawner, .get (some idlePid), .send 0 .user (.user 5)] ++
      List.replicate 4 (Label.mail (.poster 0))) (start emptyRegistry)).map State.crashed = some true := rfl
  obtain ⟨s, ran, crashed⟩ := Option.map_eq_some_iff.1 crash
  have alive := (all _ s (Machine.free_of_exec ran)).alive
  rw [crashed] at alive
  cases alive

end Protoactor.Actor.Spawn
