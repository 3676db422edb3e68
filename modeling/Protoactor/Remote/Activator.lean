import Protoactor.Actor.Spawn.Paths

/-!
# Remote activation (`src/remote/activator_actor.cpp`)

`HandleActorPidRequest` with the calls that it makes: of `NextID`, and of `Spawn` and `SpawnNamed` of the
context of the activator. A call of `Respond` is recorded; whom it reaches is not the matter here.
-/

namespace Protoactor.Remote
set_option autoImplicit false
open Actor

variable {S Q P F : Type}

structure ActorPidRequest where
  name : String
  kind : String
  deriving DecidableEq, Repr

structure ActorPidResponse (P : Type) where
  pid : Option P
  statusCode : Int
  deriving DecidableEq, Repr

/-- `RemoteConfig`, as far as the activator reads it. -/
structure RemoteConfig (Q : Type) where
  kinds : String → Option Q

/-- What the handler calls: `S` is the state of the system, `Q` are the props, `F` the exceptions of a spawn. -/
structure Runtime (S Q P F : Type) where
  nextID : S → String × S
  spawn : Q → S → Except F (Option P) × S
  /-- with the value of the `std::error_code` -/
  spawnNamed : Q → String → S → Except F (Option P × Int) × S
  /-- `message()` of an error code -/
  message : Int → String

/-- What leaves the handler. -/
inductive Thrown (F : Type) where
  | runtimeError (what : String)
  | passed (failure : F)
  deriving DecidableEq, Repr

structure Handled (S P F : Type) where
  responses : List (ActorPidResponse P)
  outcome : Except (Thrown F) Unit
  state : S

namespace ActivatorActor

/-- From the test on the result of the spawn on. -/
def answer (runtime : Runtime S Q P F) (pid : Option P) (err : Int) (s : S) : Handled S P F :=
  if pid.isSome ∧ err = 0 then ⟨[⟨pid, 0⟩], .ok (), s⟩
  else if err = 1 then ⟨[⟨pid, 2⟩], .ok (), s⟩
  else ⟨[⟨none, 1⟩], .error (.runtimeError ("failed to spawn actor: " ++ runtime.message err)), s⟩

/-- An exception of the spawn passes. -/
def answerSpawn (runtime : Runtime S Q P F) : Except F (Option P × Int) × S → Handled S P F
  | (.error failure, s) => ⟨[], .error (.passed failure), s⟩
  | (.ok (pid, err), s) => answer runtime pid err s

/-- `err` is left as it is made, which is no error. -/
def withoutError : Except F (Option P) × S → Except F (Option P × Int) × S
  | (.error failure, s) => (.error failure, s)
  | (.ok pid, s) => (.ok (pid, 0), s)

/-- From the test on the name on. -/
def activate (runtime : Runtime S Q P F) (props : Q) (requested : String) (s : S) : Handled S P F :=
  let (name, s) := if requested = "" then runtime.nextID s else (requested, s)
  if name = "" then answerSpawn runtime (withoutError (runtime.spawn props s))
  else answerSpawn runtime (runtime.spawnNamed props ("Remote$" ++ name) s)

/-- `remote` is what `GetConfig` of `remote_` answers. -/
def handleActorPidRequest (runtime : Runtime S Q P F) (remote : Option (Option (RemoteConfig Q))) (request : ActorPidRequest) (s : S) :
    Handled S P F :=
  match remote with
  | none => ⟨[⟨none, 1⟩], .ok (), s⟩
  | some config =>
    match config with
    | none => ⟨[⟨none, 1⟩], .ok (), s⟩
    | some config =>
      match config.kinds request.kind with
      | none => ⟨[⟨none, 1⟩], .error (.runtimeError ("no Props found for kind " ++ request.kind)), s⟩
      | some props => activate runtime props request.name s

/-! ## Over the default spawner -/

variable {U K σ C : Type}

/-- The value of a `std::error_code`. -/
def value : Named.Errc → Int
  | .success => 0
  | .fileExists => 17

/-- A PID of the model is no null pointer. -/
def reported : Except Named.Failure (PID × Named.Errc) × S → Except Named.Failure (Option PID × Int) × S
  | (.error failure, s) => (.error failure, s)
  | (.ok (pid, err), s) => (.ok (some pid, value err), s)

/-- The activator's own context is the `n`-th. -/
def named (P U K σ C : Type) (ref n : Nat) : Runtime (Named.System P U K σ C) (Named.ActorProps U K σ C) PID Named.Failure where
  nextID s := (s.registry.nextID.1, { s with registry := s.registry.nextID.2 })
  spawn props s := ((s.spawn ref (.actor n) props).1.map some, (s.spawn ref (.actor n) props).2)
  spawnNamed props id s := reported (s.spawnNamed ref (.actor n) props id)
  message
    | 0 => "Success"
    | _ => "File exists"

theorem singleton_append_ne_empty (c : Char) (s : String) : String.singleton c ++ s ≠ "" := by
  intro empty
  have chars := congrArg String.toList empty
  rw [String.toList_append, String.toList_singleton] at chars
  cases chars

/-- The name that is generated is not empty. -/
theorem uint64ToIDLoop_ne_empty (u : UInt64) (result : String) : ProcessRegistry.uint64ToIDLoop u result ≠ "" := by
  induction u, result using ProcessRegistry.uint64ToIDLoop.induct with
  | case1 u result big ih =>
    rw [ProcessRegistry.uint64ToIDLoop, if_pos big]
    exact ih
  | case2 u result small =>
    rw [ProcessRegistry.uint64ToIDLoop, if_neg small]
    exact singleton_append_ne_empty _ _

open Named

variable {registered : Type} {s s' : System registered U K σ C} {ref n : Nat} {me : PID}

/-- There is a new actor, and a name that was free is its own. -/
structure Spawned (s s' : System registered U K σ C) (pid : PID) : Prop where
  free : s.registry.find pid.id = none
  entered : s'.registry.find pid.id = some (.actor s.mailboxes.length)
  self : s'.self (.actor s.contexts.length) = some pid

/-- The names are taken as they were. -/
def SameNames (s s' : System registered U K σ C) : Prop := ∀ id, s'.registry.find id = s.registry.find id

theorem not_spawned_of_sameNames (same : SameNames s s') (pid : PID) : ¬ Spawned s s' pid := by
  intro spawned
  cases spawned.entered.symm.trans ((same pid.id).trans spawned.free)

/-- `SpawnNamed` of a context that has its PID. -/
theorem spawnNamed_cases (self : s.self (.actor n) = some me) (ref : Nat) (props : ActorProps U K σ C) (id : String) :
    (Throws props ∧ (s.spawnNamed ref (.actor n) props id).1 = .error .threw ∧ SameNames s (s.spawnNamed ref (.actor n) props id).2) ∨
    (¬ Throws props ∧ (∃ pid, (s.spawnNamed ref (.actor n) props id).1 = .ok (pid, .fileExists)) ∧
      SameNames s (s.spawnNamed ref (.actor n) props id).2) ∨
    (¬ Throws props ∧ ∃ pid, (s.spawnNamed ref (.actor n) props id).1 = .ok (pid, .success) ∧
      Spawned s (s.spawnNamed ref (.actor n) props id).2 pid) := by
  have enters := (spawnNamed_enters ref (.actor n) props id s).2
  have named : s.prefixed (.actor n) id = some (me.id ++ "/" ++ id) := by rw [System.prefixed, self, Option.map_some]
  unfold System.spawnNamed at enters ⊢
  rw [named] at enters ⊢
  dsimp only at enters ⊢
  generalize result : s.defaultSpawner ref (me.id ++ "/" ++ id) props (s.self (.actor n)) = r at enters ⊢
  have spawns := result ▸ defaultSpawner_spawns ref (me.id ++ "/" ++ id) props (s.self (.actor n)) s
  cases spawns with
  | threw throws unchanged => exact .inl ⟨throws, rfl, fun id => by rw [unchanged.registry]⟩
  | taken quiet found unchanged => exact .inr (.inl ⟨quiet, ⟨_, rfl⟩, fun id => by rw [unchanged.registry]⟩)
  | entered quiet mailbox free pushed user =>
    refine .inr (.inr ⟨quiet, _, rfl, free, ?_, (enters _ rfl).2⟩)
    exact (ProcessRegistry.find_write _ _ _ _).trans (if_pos rfl)

/-- A name is given or generated, so it is `SpawnNamed` that is called. -/
theorem activate_eq (props : ActorProps U K σ C) (requested : String) (s : System registered U K σ C) :
    ∃ name t, (t = s ∨ t = { s with registry := s.registry.nextID.2 }) ∧ activate (named registered U K σ C ref n) props requested s =
      answerSpawn (named registered U K σ C ref n) (reported (t.spawnNamed ref (.actor n) props name)) := by
  unfold activate
  by_cases empty : requested = ""
  · have drawn : ((named registered U K σ C ref n).nextID s).1 ≠ "" := uint64ToIDLoop_ne_empty _ _
    refine ⟨"Remote$" ++ s.registry.nextID.1, _, .inr rfl, ?_⟩
    rw [if_pos empty]
    exact if_neg drawn
  · refine ⟨"Remote$" ++ requested, _, .inl rfl, ?_⟩
    rw [if_neg empty]
    exact if_neg empty

/-- From the test on the name on: no answer, one that reports a failure, or one with the PID of a new actor. -/
theorem activate_cases (self : s.self (.actor n) = some me) (ref : Nat) (props : ActorProps U K σ C) (requested : String) :
    let r := activate (named registered U K σ C ref n) props requested s
    (Throws props ∧ r.responses = [] ∧ (∃ thrown, r.outcome = .error thrown) ∧ SameNames s r.state) ∨
    (¬ Throws props ∧ (∃ response, r.responses = [response] ∧ response.statusCode ≠ 0) ∧ SameNames s r.state) ∨
    (¬ Throws props ∧ ∃ pid, r.responses = [⟨some pid, 0⟩] ∧ r.outcome = .ok () ∧ Spawned s r.state pid) := by
  obtain ⟨name, t, drawn, eq⟩ := @activate_eq _ _ _ _ _ ref n props requested s
  have here : t.self (.actor n) = some me := by rcases drawn with rfl | rfl <;> exact self
  have same : SameNames s t := by rcases drawn with rfl | rfl <;> exact fun _ => rfl
  have lists : t.mailboxes = s.mailboxes ∧ t.contexts = s.contexts := by rcases drawn with rfl | rfl <;> exact ⟨rfl, rfl⟩
  intro r
  rw [show r = _ from eq]
  have spawns := spawnNamed_cases here ref props name
  generalize t.spawnNamed ref (.actor n) props name = result at spawns
  obtain ⟨made, after⟩ := result
  rcases spawns with ⟨throws, threw, kept⟩ | ⟨quiet, ⟨pid, taken⟩, kept⟩ | ⟨quiet, pid, spawned, new⟩
  · cases threw
    exact .inl ⟨throws, rfl, ⟨_, rfl⟩, fun id => (kept id).trans (same id)⟩
  · cases taken
    exact .inr (.inl ⟨quiet, ⟨_, rfl, by decide⟩, fun id => (kept id).trans (same id)⟩)
  · cases spawned
    refine .inr (.inr ⟨quiet, pid, rfl, rfl, (same pid.id).symm.trans new.free, ?_, ?_⟩)
    · rw [← lists.1]
      exact new.entered
    · rw [← lists.2]
      exact new.self

/-- An answer that reports a failure, in a state with the same names. -/
theorem answers_failure {r : Handled (System registered U K σ C) PID F} {response : ActorPidResponse PID} (one : r.responses = [response])
    (failed : response.statusCode ≠ 0) (same : SameNames s r.state) :
    (∀ pid, r.responses = [⟨some pid, 0⟩] ↔ Spawned s r.state pid) ∧
      ∀ response ∈ r.responses, response.statusCode = 0 → r.outcome = .ok () ∧ ∃ pid, response.pid = some pid := by
  rw [one]
  refine ⟨fun pid => iff_of_false (fun equal => ?_) (not_spawned_of_sameNames same pid), fun other inside zero => ?_⟩
  · cases equal
    exact failed rfl
  · cases List.mem_singleton.1 inside
    exact absurd zero failed

/-- Status `0` comes with the PID of a new actor. -/
theorem answers_activate (self : s.self (.actor n) = some me) (ref : Nat) (props : ActorProps U K σ C) (requested : String) :
    let r := activate (named registered U K σ C ref n) props requested s
    (∀ pid, r.responses = [⟨some pid, 0⟩] ↔ Spawned s r.state pid) ∧
      ∀ response ∈ r.responses, response.statusCode = 0 → r.outcome = .ok () ∧ ∃ pid, response.pid = some pid := by
  intro r
  rcases activate_cases self ref props requested with ⟨-, silent, -, same⟩ | ⟨-, ⟨response, one, failed⟩, same⟩ | ⟨-, pid, one, returned, new⟩
  · rw [silent]
    exact ⟨fun pid => iff_of_false nofun (not_spawned_of_sameNames same pid), nofun⟩
  · exact answers_failure one failed same
  · rw [one]
    refine ⟨fun other => ⟨fun equal => ?_, fun spawned => ?_⟩, fun response inside _ => ?_⟩
    · cases equal
      exact new
    · rw [Option.some.inj (new.self.symm.trans spawned.self)]
    · cases List.mem_singleton.1 inside
      exact ⟨returned, pid, rfl⟩

/-- What becomes of a request: there is no configuration, the kind is unknown, or it is activated. -/
theorem handle_cases (remote : Option (Option (RemoteConfig (ActorProps U K σ C)))) (request : ActorPidRequest) (s : System registered U K σ C) :
    let r := handleActorPidRequest (named registered U K σ C ref n) remote request s
    (remote.join = none ∧ r = ⟨[⟨none, 1⟩], .ok (), s⟩) ∨
    (∃ config, remote.join = some config ∧ config.kinds request.kind = none ∧
      r = ⟨[⟨none, 1⟩], .error (.runtimeError ("no Props found for kind " ++ request.kind)), s⟩) ∨
    ∃ config props, remote.join = some config ∧ config.kinds request.kind = some props ∧
      r = activate (named registered U K σ C ref n) props request.name s := by
  cases remote with
  | none => exact .inl ⟨rfl, rfl⟩
  | some config =>
    cases config with
    | none => exact .inl ⟨rfl, rfl⟩
    | some config =>
      right
      cases kind : config.kinds request.kind with
      | none =>
        refine .inl ⟨config, rfl, kind, ?_⟩
        simp only [handleActorPidRequest, kind]
      | some props =>
        refine .inr ⟨config, props, rfl, kind, ?_⟩
        simp only [handleActorPidRequest, kind]

/-- **Remote activation**: one answer for each request, unless a producer throws, and status `0` with the PID exactly
for an actor that this call has spawned. -/
theorem activation (self : s.self (.actor n) = some me) (ref : Nat) (remote : Option (Option (RemoteConfig (ActorProps U K σ C))))
    (request : ActorPidRequest) :
    let r := handleActorPidRequest (named registered U K σ C ref n) remote request s
    (remote.join = none → r.responses = [⟨none, 1⟩] ∧ r.outcome = .ok ()) ∧
    (∀ config, remote.join = some config → config.kinds request.kind = none →
      r.responses = [⟨none, 1⟩] ∧ r.outcome = .error (.runtimeError ("no Props found for kind " ++ request.kind))) ∧
    (∀ config props, remote.join = some config → config.kinds request.kind = some props →
      (¬ Throws props → r.responses.length = 1) ∧ (Throws props → r.responses = [] ∧ ∃ thrown, r.outcome = .error thrown)) ∧
    (∀ pid, r.responses = [⟨some pid, 0⟩] ↔ Spawned s r.state pid) ∧
    ∀ response ∈ r.responses, response.statusCode = 0 → r.outcome = .ok () ∧ ∃ pid, response.pid = some pid := by
  intro r
  have unknown : ∀ outcome : Except (Thrown Failure) Unit, r = ⟨[⟨none, 1⟩], outcome, s⟩ →
      (∀ pid, r.responses = [⟨some pid, 0⟩] ↔ Spawned s r.state pid) ∧
        ∀ response ∈ r.responses, response.statusCode = 0 → r.outcome = .ok () ∧ ∃ pid, response.pid = some pid := by
    rintro outcome equal
    exact answers_failure (by rw [equal]) (by decide) (by rw [equal]; exact fun _ => rfl)
  rcases @handle_cases _ _ _ _ _ ref n remote request s with ⟨none, equal⟩ | ⟨config, here, missing, equal⟩ | ⟨config, props, here, known, equal⟩
  · refine ⟨fun _ => ?_, fun config some => ?_, fun config props some => ?_, unknown _ equal⟩
    · rw [show r = _ from equal]
      exact ⟨rfl, rfl⟩
    · cases none.symm.trans some
    · cases none.symm.trans some
  · refine ⟨fun none => ?_, fun _ _ _ => ?_, fun config' props some known => ?_, unknown _ equal⟩
    · cases here.symm.trans none
    · rw [show r = _ from equal]
      exact ⟨rfl, rfl⟩
    · cases here.symm.trans some
      cases missing.symm.trans known
  · rw [show r = _ from equal]
    refine ⟨fun none => ?_, fun config' some missing => ?_, fun config' props' some known' => ?_, answers_activate self ref props request.name⟩
    · cases here.symm.trans none
    · cases here.symm.trans some
      cases known.symm.trans missing
    · cases here.symm.trans some
      cases known.symm.trans known'
      rcases activate_cases self ref props request.name with ⟨throws, silent, threw, -⟩ | ⟨quiet, ⟨response, one, -⟩, -⟩ | ⟨quiet, pid, one, -⟩
      · exact ⟨fun quiet => absurd throws quiet, fun _ => ⟨silent, threw⟩⟩
      · exact ⟨fun _ => by rw [one]; rfl, fun throws => absurd throws quiet⟩
      · exact ⟨fun _ => by rw [one]; rfl, fun throws => absurd throws quiet⟩

/-- A system with the activator, and one kind of actors. -/
def withActivator : System Unit Nat Nat Unit Unit :=
  ((⟨.new (.other ()), [], [], []⟩ : System Unit Nat Nat Unit Unit).spawnNamed 0 .root idleProps "activator").2

def oneKind : RemoteConfig (ActorProps Nat Nat Unit Unit) := ⟨fun kind => if kind = "worker" then some idleProps else none⟩

theorem activation_worker : ∃ pid, (handleActorPidRequest (named Unit Nat Nat Unit Unit 1 0) (some (some oneKind)) ⟨"a", "worker"⟩
    withActivator).responses = [⟨some pid, 0⟩] ∧ Spawned withActivator
      (handleActorPidRequest (named Unit Nat Nat Unit Unit 1 0) (some (some oneKind)) ⟨"a", "worker"⟩ withActivator).state pid := by
  have answered : (handleActorPidRequest (named Unit Nat Nat Unit Unit 1 0) (some (some oneKind)) ⟨"a", "worker"⟩ withActivator).responses =
      [⟨some ⟨1, localAddress, "activator/Remote$a"⟩, 0⟩] := by decide
  have here : withActivator.self (.actor 0) = some ⟨0, localAddress, "activator"⟩ := by decide
  exact ⟨_, answered, ((activation here 1 (some (some oneKind)) ⟨"a", "worker"⟩).2.2.2.1 _).1 answered⟩

/-- After the answer for an unknown kind the handler throws. -/
theorem not_returned : (handleActorPidRequest (named Unit Nat Nat Unit Unit 1 0) (some (some oneKind)) ⟨"a", "other"⟩ withActivator).responses =
      [⟨none, 1⟩] ∧
    (handleActorPidRequest (named Unit Nat Nat Unit Unit 1 0) (some (some oneKind)) ⟨"a", "other"⟩ withActivator).outcome ≠ .ok () := by
  refine ⟨by decide, fun returned => ?_⟩
  have threw : (handleActorPidRequest (named Unit Nat Nat Unit Unit 1 0) (some (some oneKind)) ⟨"a", "other"⟩ withActivator).outcome =
      .error (.runtimeError "no Props found for kind other") := rfl
  cases threw.symm.trans returned

end ActivatorActor

end Protoactor.Remote
