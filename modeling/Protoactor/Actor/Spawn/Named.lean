import Protoactor.Actor.Registry
import Protoactor.Actor.Context

/-!
# Spawning under a name (`src/actor/props.cpp`, `src/actor/actor_context.cpp`, `src/actor/root_context.cpp`)

One call after another of `Spawn`, `SpawnPrefix` and `SpawnNamed`, with the objects that
`defaultSpawner` makes: contexts and mailboxes are entries of two lists, a pointer to one is its place.
An object that nothing points to any more keeps its place. What the dispatcher is given does not run
before the call returns.

`posted` is auxiliary: the calls of `PostSystemMessage`, with what `RegisterHandlers` had stored.
-/

namespace Protoactor.Actor.Named
set_option autoImplicit false

variable {P U K σ C : Type}

/-- What a `std::shared_ptr<Process>` of the registry points to. -/
inductive Process (P : Type) where
  /-- an `ActorProcess`, with the `n`-th mailbox -/
  | actor (n : Nat)
  | other (process : P)
  deriving DecidableEq, Repr

structure Mailbox (U K : Type) where
  box : DefaultMailbox (Ptr U K)
  /-- `invoker_ptr_`, which is the `n`-th context -/
  invoker : Option Nat
  /-- `dispatcher_` -/
  dispatcher : Option Handlers
  /-- the calls of `dispatcher_->Schedule` -/
  scheduled : Nat
  deriving DecidableEq, Repr

structure Posted (U K : Type) where
  mailbox : Nat
  message : Ptr U K
  invoker : Option Nat
  dispatcher : Option Handlers
  deriving DecidableEq, Repr

/-- `Props` with the default spawner and without spawn middleware. -/
structure ActorProps (U K σ C : Type) where
  props : Props U K C
  /-- the producer, and the actors that it makes -/
  beh : Behaviour U K σ C
  memory : σ
  /-- `GetDispatcher` -/
  dispatcher : Handlers
  /-- what `ProduceMailbox` makes; `none` is an exception -/
  mailbox : Option (DefaultMailbox (Ptr U K))

/-- The `std::error_code` of a spawn. -/
inductive Errc where
  | success
  | fileExists
  deriving DecidableEq, Repr

/-- Why a call does not return. -/
inductive Failure where
  | threw
  /-- a null pointer was dereferenced -/
  | null
  deriving DecidableEq, Repr

/-- The context whose method is called. -/
inductive Parent where
  /-- `RootContext` -/
  | root
  /-- the `n`-th `ActorContext` -/
  | actor (n : Nat)
  deriving DecidableEq, Repr

structure System (P U K σ C : Type) where
  registry : ProcessRegistry (Process P)
  contexts : List (ActorContext U K σ C)
  mailboxes : List (Mailbox U K)
  posted : List (Posted U K)

/-- The `Started` that the spawner posts. -/
def startedEnvelope : Ptr U K := wrapEnvelope .started

/-- `EnsureExtras()->children_.push_back(pid)`. -/
def adopt (pid : PID) (c : ActorContext U K σ C) : ActorContext U K σ C :=
  { c with extras := some { c.ensureExtras with children := c.ensureExtras.children ++ [pid] } }

namespace Mailbox

def schedule (b : Mailbox U K) : Except Failure (Mailbox U K) :=
  match b.box.schedulerStatus with
  | .running => .ok b
  | .idle =>
    match b.dispatcher with
    | none => .error .null
    | some _ => .ok { b with box := { b.box with schedulerStatus := .running }, scheduled := b.scheduled + 1 }

def postSystemMessage (message : Ptr U K) (b : Mailbox U K) : Except Failure (Mailbox U K) :=
  let item := if message.isNull then none else some message
  { b with box := { b.box with system := (b.box.system.push item).fetchAdd } }.schedule

def registerHandlers (invoker : Nat) (dispatcher : Handlers) (b : Mailbox U K) : Mailbox U K :=
  { b with invoker := some invoker, dispatcher := some dispatcher }

/-- `Start`, which does nothing. -/
def start (b : Mailbox U K) : Mailbox U K := b

end Mailbox

namespace System

/-- `Self()`. -/
def self (s : System P U K σ C) : Parent → Option PID
  | .root => none
  | .actor n => s.contexts[n]?.bind ActorContext.self

/-- `PostSystemMessage` of the `n`-th mailbox. -/
def postSystemMessage (n : Nat) (message : Ptr U K) (s : System P U K σ C) : Except Failure (System P U K σ C) :=
  match s.mailboxes[n]? with
  | none => .error .null
  | some b => do
    let b' ← b.postSystemMessage message
    return { s with mailboxes := s.mailboxes.set n b', posted := s.posted ++ [⟨n, message, b.invoker, b.dispatcher⟩] }

/-- `defaultSpawner`; `ref` is the PID object that `NewPID` makes. -/
def defaultSpawner (ref : Nat) (id : String) (props : ActorProps U K σ C) (parent : Option PID) (s : System P U K σ C) :
    Except Failure (PID × Errc) × System P U K σ C :=
  match props.beh.produce props.memory with
  | none => (.error .threw, s)
  | some (memory, actor) =>
    let ctx := s.contexts.length
    let s : System P U K σ C := { s with contexts := s.contexts ++ [.new none parent memory actor] }
    match props.mailbox with
    | none => (.error .threw, s)
    | some box =>
      let mailbox := s.mailboxes.length
      let s : System P U K σ C := { s with mailboxes := s.mailboxes ++ [⟨box, none, none, 0⟩] }
      let pid : PID := ⟨ref, s.registry.address, id⟩
      match s.registry.add (.actor mailbox) id with
      | (false, registry) => (.ok (pid, .fileExists), { s with registry := registry })
      | (true, registry) =>
        let s : System P U K σ C := { s with registry := registry }
        let s : System P U K σ C := { s with contexts := s.contexts.modify ctx fun c => { c with self := some pid } }
        let s : System P U K σ C :=
          { s with mailboxes := s.mailboxes.modify mailbox fun b => (b.registerHandlers ctx props.dispatcher).start }
        match s.postSystemMessage mailbox startedEnvelope with
        | .error failure => (.error failure, s)
        | .ok s => (.ok (pid, .success), s)

/-- `self_->id + "/" + id`; a `RootContext` takes the id as it is. -/
def prefixed (s : System P U K σ C) (parent : Parent) (id : String) : Option String :=
  match parent with
  | .root => some id
  | .actor _ => (s.self parent).map fun self => self.id ++ "/" ++ id

/-- What `SpawnNamed` of an `ActorContext` does with a new child. -/
def pushBack (parent : Parent) (pid : PID) (s : System P U K σ C) : System P U K σ C :=
  match parent with
  | .root => s
  | .actor n => { s with contexts := s.contexts.modify n (adopt pid) }

/-- `SpawnNamed`. -/
def spawnNamed (ref : Nat) (parent : Parent) (props : ActorProps U K σ C) (id : String) (s : System P U K σ C) :
    Except Failure (PID × Errc) × System P U K σ C :=
  match s.prefixed parent id with
  | none => (.error .null, s)
  | some fullId =>
    match s.defaultSpawner ref fullId props (s.self parent) with
    | (.ok (pid, .success), s) => (.ok (pid, .success), s.pushBack parent pid)
    | failed => failed

/-- `SpawnPrefix`: an `ActorContext` puts its own id in front of the name that it gives to `SpawnNamed`. -/
def spawnPrefix (ref : Nat) (parent : Parent) (props : ActorProps U K σ C) (idPrefix : String) (s : System P U K σ C) :
    Except Failure PID × System P U K σ C :=
  let id := idPrefix ++ s.registry.nextID.1
  let s : System P U K σ C := { s with registry := s.registry.nextID.2 }
  match s.prefixed parent id with
  | none => (.error .null, s)
  | some name =>
    match s.spawnNamed ref parent props name with
    | (.ok (pid, .success), s) => (.ok pid, s)
    | (.ok (_, .fileExists), s) => (.error .threw, s)
    | (.error failure, s) => (.error failure, s)

/-- `Spawn`, which does the same without a prefix. -/
def spawn (ref : Nat) (parent : Parent) (props : ActorProps U K σ C) (s : System P U K σ C) :
    Except Failure PID × System P U K σ C := s.spawnPrefix ref parent props ""

end System

/-! ## What a spawn changes -/

/-- Nothing that was there before has changed. -/
structure Unchanged (s s' : System P U K σ C) : Prop where
  registry : s'.registry = s.registry
  contexts : s.contexts <+: s'.contexts
  mailboxes : s.mailboxes <+: s'.mailboxes
  posted : s'.posted = s.posted

/-- One entry, one child and one `Started` more, which finds the handlers registered. -/
structure Entered (parent : Parent) (props : ActorProps U K σ C) (pid : PID) (s s' : System P U K σ C) : Prop where
  registry : s'.registry = s.registry.write pid.id (some (.actor s.mailboxes.length))
  contexts : ∀ n c, s.contexts[n]? = some c → s'.contexts[n]? = some (if parent = .actor n then adopt pid c else c)
  mailboxes : ∃ b box, s'.mailboxes = s.mailboxes ++ [b] ∧ props.mailbox = some box ∧
    b.box.system.pushed = box.system.pushed ++ [some startedEnvelope] ∧ b.box.user = box.user
  posted : s'.posted = s.posted ++ [⟨s.mailboxes.length, startedEnvelope, some s.contexts.length, some props.dispatcher⟩]

/-- The producer of the actor or of the mailbox throws. -/
def Throws (props : ActorProps U K σ C) : Prop := props.beh.produce props.memory = none ∨ props.mailbox = none

/-- The post of the spawner: the handlers are there, so it returns. -/
theorem post_started (box : DefaultMailbox (Ptr U K)) (ctx : Nat) (dispatcher : Handlers) :
    ∃ b : Mailbox U K, Mailbox.postSystemMessage startedEnvelope ⟨box, some ctx, some dispatcher, 0⟩ = .ok b ∧
      b.box.system.pushed = box.system.pushed ++ [some startedEnvelope] ∧ b.box.user = box.user := by
  unfold Mailbox.postSystemMessage Mailbox.schedule
  dsimp only
  split
  · exact ⟨_, rfl, rfl, rfl⟩
  · exact ⟨_, rfl, rfl, rfl⟩

/-- What `defaultSpawner` can do. -/
inductive Spawns (ref : Nat) (id : String) (props : ActorProps U K σ C) (parent : Option PID) (s : System P U K σ C) :
    Except Failure (PID × Errc) × System P U K σ C → Prop where
  | threw {s' : System P U K σ C} (throws : Throws props) (unchanged : Unchanged s s') :
      Spawns ref id props parent s (.error .threw, s')
  | taken {s' : System P U K σ C} (made : ¬ Throws props) (found : s.registry.find id ≠ none) (unchanged : Unchanged s s') :
      Spawns ref id props parent s (.ok (⟨ref, s.registry.address, id⟩, .fileExists), s')
  | entered {memory : σ} {actor : Bool} {box : DefaultMailbox (Ptr U K)} {b : Mailbox U K} (made : ¬ Throws props)
      (mailbox : props.mailbox = some box) (free : s.registry.find id = none)
      (pushed : b.box.system.pushed = box.system.pushed ++ [some startedEnvelope]) (user : b.box.user = box.user) :
      Spawns ref id props parent s (.ok (⟨ref, s.registry.address, id⟩, .success),
        { registry := s.registry.write id (some (.actor s.mailboxes.length))
          contexts := s.contexts ++ [.new (some ⟨ref, s.registry.address, id⟩) parent memory actor]
          mailboxes := s.mailboxes ++ [b]
          posted := s.posted ++ [⟨s.mailboxes.length, startedEnvelope, some s.contexts.length, some props.dispatcher⟩] })

theorem modify_last {α : Type} (l : List α) (x : α) (f : α → α) : (l ++ [x]).modify l.length f = l ++ [f x] := by
  induction l with
  | nil => rfl
  | cons y l ih => exact congrArg (y :: ·) ih

theorem set_last {α : Type} (l : List α) (x y : α) : (l ++ [x]).set l.length y = l ++ [y] := by
  rw [List.set_append_right l.length y (Nat.le_refl _), Nat.sub_self]
  rfl

theorem defaultSpawner_spawns (ref : Nat) (id : String) (props : ActorProps U K σ C) (parent : Option PID) (s : System P U K σ C) :
    Spawns ref id props parent s (s.defaultSpawner ref id props parent) := by
  unfold System.defaultSpawner
  cases produced : props.beh.produce props.memory with
  | none => exact .threw (.inl produced) ⟨rfl, List.prefix_rfl, List.prefix_rfl, rfl⟩
  | some made =>
    obtain ⟨memory, actor⟩ := made
    cases mailbox : props.mailbox with
    | none => exact .threw (.inr mailbox) ⟨rfl, List.prefix_append _ _, List.prefix_rfl, rfl⟩
    | some box =>
      have quiet : ¬ Throws props := by
        rintro (none | none)
        · cases none.symm.trans produced
        · cases none.symm.trans mailbox
      dsimp only
      cases found : s.registry.find id with
      | some process =>
        rw [ProcessRegistry.add, found]
        refine .taken quiet ?_ ⟨rfl, List.prefix_append _ _, List.prefix_append _ _, rfl⟩
        rw [found]
        exact Option.some_ne_none process
      | none =>
        rw [ProcessRegistry.add, found]
        obtain ⟨b, posts, pushed, user⟩ := post_started box s.contexts.length props.dispatcher
        have last : (s.mailboxes ++ [(⟨box, some s.contexts.length, some props.dispatcher, 0⟩ : Mailbox U K)])[s.mailboxes.length]? =
            some ⟨box, some s.contexts.length, some props.dispatcher, 0⟩ := List.getElem?_concat_length
        simp only [modify_last, System.postSystemMessage, Mailbox.registerHandlers, Mailbox.start, last, posts, bind, Except.bind, pure,
          Except.pure, set_last]
        exact .entered quiet mailbox found pushed user

/-- **A spawn that fails changes nothing**; one that succeeds enters the child. -/
theorem spawnNamed_atomic {s : System P U K σ C} {parent : Parent} {id fullId : String} (named : s.prefixed parent id = some fullId)
    (ref : Nat) (props : ActorProps U K σ C) :
    (Throws props → ∃ s', s.spawnNamed ref parent props id = (.error .threw, s') ∧ Unchanged s s') ∧
    (¬ Throws props → s.registry.find fullId ≠ none →
      ∃ s', s.spawnNamed ref parent props id = (.ok (⟨ref, s.registry.address, fullId⟩, .fileExists), s') ∧ Unchanged s s') ∧
    (¬ Throws props → s.registry.find fullId = none →
      ∃ s', s.spawnNamed ref parent props id = (.ok (⟨ref, s.registry.address, fullId⟩, .success), s') ∧
        Entered parent props ⟨ref, s.registry.address, fullId⟩ s s') := by
  unfold System.spawnNamed
  rw [named]
  dsimp only
  generalize result : s.defaultSpawner ref fullId props (s.self parent) = r
  have spawns := result ▸ defaultSpawner_spawns ref fullId props (s.self parent) s
  cases spawns with
  | threw throws unchanged =>
    exact ⟨fun _ => ⟨_, rfl, unchanged⟩, fun quiet => absurd throws quiet, fun quiet => absurd throws quiet⟩
  | taken quiet found unchanged =>
    exact ⟨fun throws => absurd throws quiet, fun _ _ => ⟨_, rfl, unchanged⟩, fun _ free => absurd free found⟩
  | entered quiet mailbox free pushed user =>
    refine ⟨fun throws => absurd throws quiet, fun _ found => absurd free found, fun _ _ => ⟨_, rfl, ?_⟩⟩
    refine ⟨?_, fun n c here => ?_, ⟨_, _, ?_, mailbox, pushed, user⟩, ?_⟩
    · cases parent <;> rfl
    · have inside : n < s.contexts.length := (List.getElem?_eq_some_iff.1 here).1
      cases parent with
      | root => rw [if_neg nofun]; exact (List.getElem?_append_left inside).trans here
      | actor m =>
        show (List.modify _ m _)[n]? = _
        rw [List.getElem?_modify, List.getElem?_append_left inside, here, Option.map_eq_map, Option.map_some]
        by_cases same : m = n
        · rw [if_pos same, if_pos (congrArg Parent.actor same)]
        · rw [if_neg same, if_neg fun other => same (Parent.actor.inj other)]
    · cases parent <;> rfl
    · cases parent <;> rfl

/-- An actor that returns at once, and one whose producer throws. -/
def idleProps : ActorProps Nat Nat Unit Unit := ⟨.plain, ActorContext.idle, (), ⟨300⟩, some .new⟩

def throwingProps : ActorProps Nat Nat Unit Unit := { idleProps with beh := { ActorContext.idle with produce := fun _ => none } }

/-- A system with one actor, `a`, and its child `a/b`. -/
def family : System Unit Nat Nat Unit Unit :=
  ((⟨.new (.other ()), [], [], []⟩ : System Unit Nat Nat Unit Unit).spawnNamed 0 .root idleProps "a").2.spawnNamed 1 (.actor 0) idleProps "b"
    |>.2

theorem spawnNamed_atomic_taken :
    ∃ s', family.spawnNamed 2 (.actor 0) idleProps "b" = (.ok (⟨2, localAddress, "a/b"⟩, .fileExists), s') ∧ Unchanged family s' :=
  (spawnNamed_atomic (show family.prefixed (.actor 0) "b" = some "a/b" by decide) 2 idleProps).2.1 (by
    rintro (none | none)
    · cases none
    · cases none) (by decide)

/-- The producer is called before the name is looked up. -/
theorem not_fileExists_throwing : family.registry.find "a/b" ≠ none ∧ family.registry.find "a/c" = none ∧
    ∀ id err, (family.spawnNamed 2 (.actor 0) throwingProps id).1 ≠ .ok err := by
  refine ⟨by decide, by decide +kernel, fun id err => ?_⟩
  unfold System.spawnNamed
  cases family.prefixed (.actor 0) id with
  | none => exact nofun
  | some fullId => exact nofun

end Protoactor.Actor.Named
