import Mathlib.Data.List.Nodup
import Protoactor.Lib.Int32
import Protoactor.Actor.Spawn.Named

/-!
# Props (`src/actor/props.cpp`, `src/actor/middleware_chain.cpp`)

The `With…` options of `Props` and what can be seen of the props afterwards. A spawner is a value that is
called with the props themselves, so it can read whatever they hold. A middleware is a function that
returns; the function it makes may be empty.

`WithSpawnMiddleware` builds its chain over the spawner that the props have at that moment.
-/

namespace Protoactor.Actor.Configured
set_option autoImplicit false
open Lib

/-! ## Chains -/

/-- Takes the next function and makes another. -/
abbrev Middleware (F : Type) := Option F → Option F

section Chain

variable {F : Type}

/-- `h = middleware[i](h)` for `i = n - 1, …, 0`. -/
def applyDown (middleware : List (Middleware F)) : Nat → Option F → Option F
  | 0, h => h
  | i + 1, h => applyDown middleware i ((middleware[i]?.getD id) h)

/-- The four `Make…Chain`; `i` starts at `static_cast<int>(middleware.size()) - 2`. -/
def makeChain (middleware : List (Middleware F)) (last : Option F) : Option F :=
  match middleware.getLast? with
  | none => last
  | some m => applyDown middleware (int32 middleware.length - 1).toNat (m last)

def makeReceiverMiddlewareChain (middleware : List (Middleware F)) (lastReceiver : F) : Option F := makeChain middleware (some lastReceiver)

def makeSenderMiddlewareChain (middleware : List (Middleware F)) (lastSender : F) : Option F := makeChain middleware (some lastSender)

def makeSpawnMiddlewareChain (middleware : List (Middleware F)) (lastSpawn : F) : Option F := makeChain middleware (some lastSpawn)

def makeContextDecoratorChain (decorators : List (Middleware F)) (lastDecorator : F) : Option F := makeChain decorators (some lastDecorator)

end Chain

/-! ## Props -/

/-- What props are made of. Pointers and `std::function`s are options of these, as they may be empty. -/
structure Types where
  Spawner : Type
  Producer : Type
  MailboxProducer : Type
  Supervisor : Type
  Dispatcher : Type
  Receiver : Type
  Sender : Type
  Decorator : Type
  OnInit : Type
  System : Type
  Context : Type
  /-- what a spawner returns, and what it has done -/
  Result : Type

structure Props (τ : Types) where
  spawner : Option τ.Spawner
  producer : Option τ.Producer
  mailboxProducer : Option τ.MailboxProducer
  supervisionStrategy : Option τ.Supervisor
  dispatcher : Option τ.Dispatcher
  receiverMiddleware : List (Middleware τ.Receiver)
  senderMiddleware : List (Middleware τ.Sender)
  spawnMiddleware : List (Middleware τ.Spawner)
  receiverMiddlewareChain : Option τ.Receiver
  senderMiddlewareChain : Option τ.Sender
  spawnMiddlewareChain : Option τ.Spawner
  contextDecorator : List (Middleware τ.Decorator)
  contextDecoratorChain : Option τ.Decorator
  onInit : List τ.OnInit

/-- `std::make_shared<Props>()` with a producer. -/
def Props.fromProducer {τ : Types} (producer : τ.Producer) : Props τ :=
  ⟨none, some producer, none, none, none, [], [], [], none, none, none, [], none, []⟩

/-- The default values, and the calls of spawners. -/
structure Defaults (τ : Types) where
  spawner : τ.Spawner
  dispatcher : τ.Dispatcher
  supervisionStrategy : τ.Supervisor
  mailboxProducer : τ.MailboxProducer
  lastReceiver : τ.Receiver
  lastSender : τ.Sender
  lastDecorator : τ.Decorator
  call : τ.Spawner → τ.System → String → Props τ → τ.Context → τ.Result

variable {τ : Types}

namespace Props

def getSpawner (d : Defaults τ) (p : Props τ) : τ.Spawner := p.spawner.getD d.spawner

def getDispatcher (d : Defaults τ) (p : Props τ) : τ.Dispatcher := p.dispatcher.getD d.dispatcher

def getSupervisor (d : Defaults τ) (p : Props τ) : τ.Supervisor := p.supervisionStrategy.getD d.supervisionStrategy

/-- The producer that `ProduceMailbox` calls. -/
def produceMailbox (d : Defaults τ) (p : Props τ) : τ.MailboxProducer := p.mailboxProducer.getD d.mailboxProducer

def getProducer (p : Props τ) : Option τ.Producer := p.producer

/-- `Spawn`. -/
def spawn (d : Defaults τ) (p : Props τ) (actorSystem : τ.System) (name : String) (parentContext : τ.Context) : τ.Result :=
  d.call (p.spawnMiddlewareChain.getD (p.getSpawner d)) actorSystem name p parentContext

end Props

/-- What the users of props see of them. -/
structure Observed (τ : Types) where
  spawn : τ.System → String → τ.Context → τ.Result
  receiverMiddlewareChain : Option τ.Receiver
  senderMiddlewareChain : Option τ.Sender
  contextDecoratorChain : Option τ.Decorator
  spawner : τ.Spawner
  dispatcher : τ.Dispatcher
  supervisor : τ.Supervisor
  mailboxProducer : τ.MailboxProducer
  producer : Option τ.Producer
  onInit : List τ.OnInit

def Props.observed (d : Defaults τ) (p : Props τ) : Observed τ where
  spawn := p.spawn d
  receiverMiddlewareChain := p.receiverMiddlewareChain
  senderMiddlewareChain := p.senderMiddlewareChain
  contextDecoratorChain := p.contextDecoratorChain
  spawner := p.getSpawner d
  dispatcher := p.getDispatcher d
  supervisor := p.getSupervisor d
  mailboxProducer := p.produceMailbox d
  producer := p.getProducer
  onInit := p.onInit

/-! ## Options -/

inductive With (τ : Types) where
  | spawner (spawner : Option τ.Spawner)
  | dispatcher (dispatcher : Option τ.Dispatcher)
  | supervisor (supervisor : Option τ.Supervisor)
  | mailboxProducer (producer : Option τ.MailboxProducer)
  | receiverMiddleware (middleware : List (Middleware τ.Receiver))
  | senderMiddleware (middleware : List (Middleware τ.Sender))
  | spawnMiddleware (middleware : List (Middleware τ.Spawner))
  | contextDecorator (decorators : List (Middleware τ.Decorator))
  | onInit (initFuncs : List τ.OnInit)

/-- The method that is called. -/
inductive Method where
  | withSpawner
  | withDispatcher
  | withSupervisor
  | withMailboxProducer
  | withReceiverMiddleware
  | withSenderMiddleware
  | withSpawnMiddleware
  | withContextDecorator
  | withOnInit
  deriving DecidableEq, Repr

def With.method : With τ → Method
  | .spawner _ => .withSpawner
  | .dispatcher _ => .withDispatcher
  | .supervisor _ => .withSupervisor
  | .mailboxProducer _ => .withMailboxProducer
  | .receiverMiddleware _ => .withReceiverMiddleware
  | .senderMiddleware _ => .withSenderMiddleware
  | .spawnMiddleware _ => .withSpawnMiddleware
  | .contextDecorator _ => .withContextDecorator
  | .onInit _ => .withOnInit

namespace Props

def apply (d : Defaults τ) (p : Props τ) : With τ → Props τ
  | .spawner spawner => { p with spawner := spawner }
  | .dispatcher dispatcher => { p with dispatcher := dispatcher }
  | .supervisor supervisor => { p with supervisionStrategy := supervisor }
  | .mailboxProducer producer => { p with mailboxProducer := producer }
  | .receiverMiddleware middleware =>
    { p with receiverMiddleware := middleware, receiverMiddlewareChain := makeReceiverMiddlewareChain middleware d.lastReceiver }
  | .senderMiddleware middleware =>
    { p with senderMiddleware := middleware, senderMiddlewareChain := makeSenderMiddlewareChain middleware d.lastSender }
  | .spawnMiddleware middleware =>
    { p with spawnMiddleware := middleware, spawnMiddlewareChain := makeSpawnMiddlewareChain middleware (p.getSpawner d) }
  | .contextDecorator decorators =>
    { p with contextDecorator := decorators, contextDecoratorChain := makeContextDecoratorChain decorators d.lastDecorator }
  | .onInit initFuncs => { p with onInit := initFuncs }

/-- `Configure`. -/
def configure (d : Defaults τ) (options : List (With τ)) (p : Props τ) : Props τ := options.foldl (apply d) p

/-! ## One option after another -/

variable (d : Defaults τ) {p : Props τ}

/-- Without the chain that depends on what was set before. -/
def unchained (p : Props τ) : Props τ := { p with spawnMiddlewareChain := none }

theorem unchained_apply (p : Props τ) (o : With τ) : (p.unchained.apply d o).unchained = (p.apply d o).unchained := by
  cases o <;> rfl

/-- Options of two methods write different fields. -/
theorem unchained_comm {a b : With τ} (differ : a.method ≠ b.method) (p : Props τ) :
    ((p.apply d a).unchained.apply d b).unchained = ((p.apply d b).unchained.apply d a).unchained := by
  rw [unchained_apply, unchained_apply]
  cases a <;> cases b <;> first | rfl | exact absurd rfl differ

theorem unchained_configure (options : List (With τ)) (p : Props τ) :
    (p.configure d options).unchained = options.foldl (fun p o => (p.apply d o).unchained) p.unchained := by
  unfold configure
  induction options generalizing p with
  | nil => rfl
  | cons o options ih =>
    rw [List.foldl_cons, List.foldl_cons, ih, unchained_apply]

/-- All but that chain is the same in every order. -/
theorem unchained_perm {order options : List (With τ)} (once : (options.map With.method).Nodup) (same : order.Perm options)
    (p : Props τ) : (p.configure d order).unchained = (p.configure d options).unchained := by
  rw [unchained_configure, unchained_configure]
  refine (same.symm.foldl_eq' (fun a inA b inB q => ?_) _).symm
  by_cases equal : a = b
  · rw [equal]
  · exact unchained_comm d (fun method => equal (List.inj_on_of_nodup_map once inA inB method)) q

theorem configure_append (before after : List (With τ)) (p : Props τ) :
    p.configure d (before ++ after) = (p.configure d before).configure d after := List.foldl_append

theorem configure_cons (o : With τ) (options : List (With τ)) (p : Props τ) :
    p.configure d (o :: options) = (p.apply d o).configure d options := rfl

theorem configure_spawner {options : List (With τ)} (none : ∀ s, .spawner s ∉ options) :
    (p.configure d options).spawner = p.spawner := by
  unfold configure
  induction options generalizing p with
  | nil => rfl
  | cons o options ih =>
    rw [List.foldl_cons, ih fun s inside => none s (.tail _ inside)]
    cases o with
    | spawner s => exact absurd (.head _) (none s)
    | _ => rfl

theorem configure_spawnMiddlewareChain {options : List (With τ)} (none : ∀ ms, .spawnMiddleware ms ∉ options) :
    (p.configure d options).spawnMiddlewareChain = p.spawnMiddlewareChain := by
  unfold configure
  induction options generalizing p with
  | nil => rfl
  | cons o options ih =>
    rw [List.foldl_cons, ih fun ms inside => none ms (.tail _ inside)]
    cases o with
    | spawnMiddleware ms => exact absurd (.head _) (none ms)
    | _ => rfl

/-- Props that agree in all but the chain. -/
theorem eq_of_unchained {p q : Props τ} (same : p.unchained = q.unchained) :
    p = { q with spawnMiddlewareChain := p.spawnMiddlewareChain } := by
  have fields := congrArg (fun r : Props τ => { r with spawnMiddlewareChain := p.spawnMiddlewareChain }) same
  exact fields

/-! ## All orders -/

/-- With the chain of `middleware` built over the spawner `base`. -/
def chainedOn (options : List (With τ)) (p : Props τ) (middleware : List (Middleware τ.Spawner)) (base : τ.Spawner) : Props τ :=
  { p.configure d options with spawnMiddlewareChain := makeSpawnMiddlewareChain middleware base }

theorem configure_of_spawner {options : List (With τ)} (once : (options.map With.method).Nodup) {s : Option τ.Spawner}
    (inside : .spawner s ∈ options) : (p.configure d options).spawner = s := by
  obtain ⟨before, after, rfl⟩ := List.append_of_mem inside
  rw [configure_append, configure_cons]
  refine configure_spawner d fun s' later => ?_
  rw [List.map_append, List.map_cons] at once
  exact (List.nodup_cons.1 once.of_append_right).1 (List.mem_map.2 ⟨_, later, rfl⟩)

/-- The chain is built where the option stands. -/
theorem configure_at (before after : List (With τ)) {middleware : List (Middleware τ.Spawner)}
    (once : ((before ++ .spawnMiddleware middleware :: after).map With.method).Nodup) (p : Props τ) :
    p.configure d (before ++ .spawnMiddleware middleware :: after) =
      chainedOn d (before ++ .spawnMiddleware middleware :: after) p middleware ((p.configure d before).getSpawner d) := by
  have last : (p.configure d (before ++ .spawnMiddleware middleware :: after)).spawnMiddlewareChain =
      makeSpawnMiddlewareChain middleware ((p.configure d before).getSpawner d) := by
    rw [configure_append, configure_cons]
    refine configure_spawnMiddlewareChain d fun ms later => ?_
    rw [List.map_append, List.map_cons] at once
    exact (List.nodup_cons.1 once.of_append_right).1 (List.mem_map.2 ⟨_, later, rfl⟩)
  rw [chainedOn, ← last]

theorem chainedOn_perm {order options : List (With τ)} (once : (options.map With.method).Nodup) (same : order.Perm options)
    (p : Props τ) (middleware : List (Middleware τ.Spawner)) (base : τ.Spawner) :
    chainedOn d order p middleware base = chainedOn d options p middleware base := by
  have fields := congrArg (fun q : Props τ => { q with spawnMiddlewareChain := makeSpawnMiddlewareChain middleware base })
    (unchained_perm d once same p)
  exact fields

/-- In every order the chain is over the spawner that the props had, or over the one that is set. -/
theorem configure_cases {order options : List (With τ)} (once : (options.map With.method).Nodup) (same : order.Perm options)
    {middleware : List (Middleware τ.Spawner)} (inside : .spawnMiddleware middleware ∈ options) (p : Props τ) :
    p.configure d order = chainedOn d options p middleware (p.getSpawner d) ∨
      ∃ s, .spawner s ∈ options ∧ p.configure d order = chainedOn d options p middleware (s.getD d.spawner) := by
  obtain ⟨before, after, rfl⟩ := List.append_of_mem (same.symm.subset inside)
  have onceHere := (same.map With.method).nodup_iff.2 once
  rw [configure_at d _ _ onceHere, chainedOn_perm d once same]
  by_cases set : ∃ s, .spawner s ∈ before
  · obtain ⟨s, set⟩ := set
    refine .inr ⟨s, same.subset (List.mem_append_left _ set), ?_⟩
    rw [List.map_append] at onceHere
    rw [getSpawner, configure_of_spawner d onceHere.of_append_left set]
  · refine .inl ?_
    rw [getSpawner, configure_spawner d fun s inside => set ⟨s, inside⟩, ← getSpawner]

/-- The options can be put so that the chain is built first, and so that it is built last. -/
theorem exists_orders {options : List (With τ)} (once : (options.map With.method).Nodup) {s : Option τ.Spawner}
    {middleware : List (Middleware τ.Spawner)} (spawner : .spawner s ∈ options) (inside : .spawnMiddleware middleware ∈ options) (p : Props τ) :
    (∃ order, order.Perm options ∧ p.configure d order = chainedOn d options p middleware (s.getD d.spawner)) ∧
      ∃ order, order.Perm options ∧ p.configure d order = chainedOn d options p middleware (p.getSpawner d) := by
  obtain ⟨before, after, split⟩ := List.append_of_mem spawner
  have others : (With.spawnMiddleware middleware) ∈ before ++ after := by
    rw [split, List.mem_append, List.mem_cons] at inside
    rcases inside with inside | equal | inside
    · exact List.mem_append_left _ inside
    · cases equal
    · exact List.mem_append_right _ inside
  obtain ⟨left, right, rest⟩ := List.append_of_mem others
  have last : (.spawner s :: .spawnMiddleware middleware :: (left ++ right)).Perm options := by
    rw [split]
    refine .trans (.cons _ ?_) List.perm_middle.symm
    rw [rest]
    exact List.perm_middle.symm
  have first : (.spawnMiddleware middleware :: .spawner s :: (left ++ right)).Perm options := (List.Perm.swap _ _ _).trans last
  refine ⟨⟨_, last, ?_⟩, ⟨_, first, ?_⟩⟩
  · rw [← chainedOn_perm d once last]
    exact configure_at d [.spawner s] _ ((last.map With.method).nodup_iff.2 once) p
  · rw [← chainedOn_perm d once first]
    exact configure_at d [] _ ((first.map With.method).nodup_iff.2 once) p

/-- Only `Spawn` looks at the chain. -/
theorem observed_eq {p q : Props τ} (same : p.unchained = q.unchained) (spawns : p.spawn d = q.spawn d) : p.observed d = q.observed d := by
  rw [observed, spawns, eq_of_unchained same]
  rfl

/-- **The options commute** unless both `WithSpawner` and `WithSpawnMiddleware` are among them; then they do exactly
if the chain spawns in the same way when it is built over the spawner that the props had before. -/
theorem commute_iff (p : Props τ) {options : List (With τ)} (once : (options.map With.method).Nodup) :
    (∀ order : List (With τ), order.Perm options → (p.configure d order).observed d = (p.configure d options).observed d) ↔
      ∀ s middleware, .spawner s ∈ options → .spawnMiddleware middleware ∈ options →
        (chainedOn d options p middleware (s.getD d.spawner)).spawn d = (chainedOn d options p middleware (p.getSpawner d)).spawn d := by
  constructor
  · intro commute s middleware spawner inside
    obtain ⟨⟨last, order, asLast⟩, ⟨first, order', asFirst⟩⟩ := exists_orders d once spawner inside p
    have same := (commute last order).trans (commute first order').symm
    rw [asLast, asFirst] at same
    exact congrArg Observed.spawn same
  · intro alike order same
    by_cases chained : ∃ middleware, .spawnMiddleware middleware ∈ options
    · obtain ⟨middleware, inside⟩ := chained
      have toFirst : ∀ {order : List (With τ)}, order.Perm options →
          (p.configure d order).observed d = (chainedOn d options p middleware (p.getSpawner d)).observed d := by
        intro order same
        rcases configure_cases d once same inside p with first | ⟨s, spawner, last⟩
        · rw [first]
        · rw [last]
          exact observed_eq d rfl (alike s middleware spawner inside)
      exact (toFirst same).trans (toFirst (.refl _)).symm
    · have chain : ∀ {order : List (With τ)}, order.Perm options → (p.configure d order).spawnMiddlewareChain = p.spawnMiddlewareChain :=
        fun same => configure_spawnMiddlewareChain d fun ms inside => chained ⟨ms, same.subset inside⟩
      rw [eq_of_unchained (unchained_perm d once same p), chain same, ← chain (.refl options)]

end Props

/-! ### A spawner that spawns nothing -/

inductive Spawner where
  | default
  /-- answers that the name is taken -/
  | refusing
  deriving DecidableEq, Repr

/-- Props for the spawns under a name. -/
abbrev named : Types where
  Spawner := Spawner
  Producer := Behaviour Nat Nat Unit Unit
  MailboxProducer := DefaultMailbox (Ptr Nat Nat)
  Supervisor := Unit
  Dispatcher := Handlers
  Receiver := Ptr Nat Nat → Unit
  Sender := PID → Ptr Nat Nat → Unit
  Decorator := Unit
  OnInit := Unit
  System := Named.System Unit Nat Nat Unit Unit
  Context := Option PID
  Result := Except Named.Failure (PID × Named.Errc) × Named.System Unit Nat Nat Unit Unit

/-- What the default spawner reads of props. -/
def actorProps (p : Props named) : Named.ActorProps Nat Nat Unit Unit where
  props := ⟨p.receiverMiddlewareChain, p.senderMiddlewareChain⟩
  beh := p.producer.getD ActorContext.idle
  memory := ()
  dispatcher := p.dispatcher.getD ⟨300⟩
  mailbox := some (p.mailboxProducer.getD .new)

def defaults : Defaults named where
  spawner := .default
  dispatcher := ⟨300⟩
  supervisionStrategy := ()
  mailboxProducer := .new
  lastReceiver := fun _ => ()
  lastSender := fun _ _ => ()
  lastDecorator := ()
  call
    | .default, s, id, p, parent => s.defaultSpawner 0 id (actorProps p) parent
    | .refusing, s, id, _, _ => (.ok (⟨0, s.registry.address, id⟩, .fileExists), s)

def idle : Props named := .fromProducer ActorContext.idle

theorem commute_iff_dispatcher : (idle.configure defaults [.spawner (some .refusing), .dispatcher (some ⟨1⟩)]).observed defaults =
    (idle.configure defaults [.dispatcher (some ⟨1⟩), .spawner (some .refusing)]).observed defaults := by
  refine (Props.commute_iff defaults idle (by decide)).2 (fun s middleware _ inside => ?_) _ (.swap _ _ _)
  rcases inside with _ | ⟨_, _ | ⟨_, inside⟩⟩
  cases inside

/-- The middleware comes first, and the spawner that is set later is not used. -/
theorem not_commute : ∃ (options order : List (With named)) (s : Named.System Unit Nat Nat Unit Unit),
    (options.map With.method).Nodup ∧ order.Perm options ∧
    ((idle.configure defaults options).spawn defaults s "a" none).1 = .ok (⟨0, localAddress, "a"⟩, .fileExists) ∧
    ((idle.configure defaults order).spawn defaults s "a" none).1 = .ok (⟨0, localAddress, "a"⟩, .success) ∧
    (idle.configure defaults order).observed defaults ≠ (idle.configure defaults options).observed defaults := by
  have refused : ((idle.configure defaults [.spawner (some .refusing), .spawnMiddleware []]).spawn defaults
      ⟨.new (.other ()), [], [], []⟩ "a" none).1 = .ok (⟨0, localAddress, "a"⟩, .fileExists) := rfl
  have spawned : ((idle.configure defaults [.spawnMiddleware [], .spawner (some .refusing)]).spawn defaults
      ⟨.new (.other ()), [], [], []⟩ "a" none).1 = .ok (⟨0, localAddress, "a"⟩, .success) := rfl
  refine ⟨_, _, _, by decide, .swap _ _ _, refused, spawned, fun same => ?_⟩
  have both := congrArg (fun o : Observed named => (o.spawn ⟨.new (.other ()), [], [], []⟩ "a" none).1) same
  cases spawned.symm.trans (both.trans refused)

end Protoactor.Actor.Configured
