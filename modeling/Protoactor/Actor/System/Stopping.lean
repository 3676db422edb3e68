import Protoactor.Lib.Pool
import Protoactor.Actor.System
import Protoactor.Actor.Context.Lifecycle

/-!
# Names after Stop

`HandleStop` stores two states and does nothing else, and no other code of an actor calls
`ProcessRegistry::Remove`. So the name of an actor is taken from its spawn on, stopped or
not, until somebody else removes it.
-/

namespace Protoactor.Actor.ActorSystem
set_option autoImplicit false
open Lib

variable {U K σ C : Type} {s s' t : ActorSystem U K σ C} {l : Label U K σ C} {ls : List (Label U K σ C)}

/-- The step puts an entry under `id`, if there is none. -/
def Label.registers (id : String) : Label U K σ C → Bool
  | .spawnNamed _ id' _ kit => id' = id ∧ (kit.beh.produce kit.memory).isSome
  | _ => false

def Label.removes (id : String) : Label U K σ C → Bool
  | .remove (some pid) => pid.id = id
  | _ => false

/-- The name was removed after the last spawn under it. -/
def Vacated (id : String) (ls : List (Label U K σ C)) : Prop :=
  ∃ before l after, ls = before ++ l :: after ∧ l.removes id ∧ ∀ l ∈ after, ¬ l.registers id

/-- What a spawn does: nothing, or one new entry and one new actor. -/
theorem spawnNamed_cases (ref : Nat) (id : String) (parent : Option PID) (kit : Kit U K σ C) (s : ActorSystem U K σ C) :
    (∃ memory actor, kit.beh.produce kit.memory = some (memory, actor) ∧ s.registry.find id = none ∧
      s.spawnNamed ref id parent kit = (.ok ⟨ref, s.registry.address, id⟩,
        { s with
          registry := s.registry.write id (some (.actor s.actors.length))
          actors := s.actors ++ [⟨⟨ref, s.registry.address, id⟩, kit, .new (some ⟨ref, s.registry.address, id⟩) parent memory actor⟩]
          posted := s.posted ++ [(s.actors.length, .system, wrapEnvelope .started)] })) ∨
    (((kit.beh.produce kit.memory).isSome → (s.registry.find id).isSome) ∧
      ∃ e, s.spawnNamed ref id parent kit = (.error e, s)) := by
  unfold spawnNamed
  cases made : kit.beh.produce kit.memory with
  | none => exact .inr ⟨nofun, .threw, rfl⟩
  | some produced =>
    obtain ⟨memory, actor⟩ := produced
    simp only [ProcessRegistry.add]
    cases entry : s.registry.find id with
    | none => exact .inl ⟨memory, actor, rfl, rfl, rfl⟩
    | some process => exact .inr ⟨fun _ => rfl, .fileExists, rfl⟩

/-! ## The entry under one name -/

/-- Every step leaves the entry under `id`, except a spawn under it and a removal of it. -/
theorem step_find (id : String) (act : step s l = some s') :
    (l.registers id = true → s'.registry.find id ≠ none) ∧
    (l.removes id = true → s'.registry.find id = none) ∧
    (l.registers id = false → l.removes id = false → s'.registry.find id = s.registry.find id) := by
  cases l with
  | spawnNamed ref id' parent kit =>
    cases act
    rcases spawnNamed_cases ref id' parent kit s with ⟨memory, actor, made, free, spawned⟩ | ⟨taken, e, failed⟩
    · rw [spawned]
      refine ⟨?_, nofun, ?_⟩
      · intro here
        simp only [Label.registers, decide_eq_true_eq] at here
        simp [ProcessRegistry.find_write, here.1]
      · intro other _
        have different : id ≠ id' := by
          rintro rfl
          simp [Label.registers, made] at other
        simp [ProcessRegistry.find_write, different]
    · rw [failed]
      refine ⟨?_, nofun, fun _ _ => rfl⟩
      intro here
      simp only [Label.registers, decide_eq_true_eq] at here
      rw [← here.1, Option.ne_none_iff_isSome]
      exact taken here.2
  | actor n l =>
    simp only [step] at act
    split at act
    · cases act
    · obtain ⟨context, -, rfl⟩ := Option.map_eq_some_iff.1 act
      exact ⟨nofun, nofun, fun _ _ => rfl⟩
  | send pid message =>
    cases act
    refine ⟨nofun, nofun, fun _ _ => ?_⟩
    unfold sendUserMessage
    split <;> rfl
  | remove pid =>
    cases act
    cases pid with
    | none => exact ⟨nofun, nofun, fun _ _ => rfl⟩
    | some pid =>
      refine ⟨nofun, ?_, fun _ kept => ?_⟩
      · intro removed
        simp only [Label.removes, decide_eq_true_eq] at removed
        simp [ProcessRegistry.find_remove, removed]
      · have different : id ≠ pid.id := by
          rintro rfl
          simp [Label.removes] at kept
        simp [ProcessRegistry.find_remove, different]

theorem vacated_cons (id : String) :
    Vacated id (l :: ls) ↔ Vacated id ls ∨ (l.removes id ∧ ∀ l ∈ ls, ¬ l.registers id) := by
  constructor
  · rintro ⟨before, r, after, split, removed, quiet⟩
    cases before with
    | nil =>
      cases split
      exact .inr ⟨removed, quiet⟩
    | cons first before =>
      cases split
      exact .inl ⟨before, r, after, rfl, removed, quiet⟩
  · rintro (⟨before, r, after, rfl, removed, quiet⟩ | ⟨removed, quiet⟩)
    · exact ⟨l :: before, r, after, rfl, removed, quiet⟩
    · exact ⟨[], l, ls, rfl, removed, quiet⟩

/-- **Who has a name** at the end of a run is decided by the last spawn or removal that
concerns it. -/
theorem find_run (id : String) (run : Machine.Run step Machine.free s ls t) :
    t.registry.find id = none ↔
      Vacated id ls ∨ (s.registry.find id = none ∧ ∀ l ∈ ls, ¬ l.registers id) := by
  induction run with
  | nil s =>
    refine ⟨fun free => .inr ⟨free, nofun⟩, ?_⟩
    rintro (⟨before, r, after, split, -, -⟩ | ⟨free, -⟩)
    · simp at split
    · exact free
  | cons act _ _ ih =>
    rename_i s s' t l ls _ _
    obtain ⟨taken, freed, same⟩ := step_find id act
    rw [ih, vacated_cons]
    simp only [List.mem_cons, forall_eq_or_imp]
    cases registers : l.registers id with
    | true =>
      have kept : l.removes id = false := by
        cases l with
        | remove pid => cases registers
        | spawnNamed _ _ _ _ | actor _ _ | send _ _ => rfl
      simp [taken registers, kept]
    | false =>
      cases removes : l.removes id with
      | true =>
        simp only [freed removes, true_and, Bool.false_eq_true, not_false_eq_true]
        grind
      | false =>
        rw [same registers removes]
        simp

/-! ## The actors of a run -/

/-- The process of `a` was put under its name by the run `ls`. -/
def Known (ls : List (Label U K σ C)) (s : ActorSystem U K σ C) : Prop :=
  s.registry.address = localAddress ∧ s.registry.deadLetter = .deadLetter ∧
  ∀ a ∈ s.actors, a.pid.address = localAddress ∧ ∃ l ∈ ls, l.registers a.pid.id

theorem known_step (known : Known ls s) (act : step s l = some s') : Known (ls ++ [l]) s' := by
  obtain ⟨address, deadLetter, actors⟩ := known
  have older : ∀ a ∈ s.actors, a.pid.address = localAddress ∧ ∃ l' ∈ ls ++ [l], l'.registers a.pid.id := by
    intro a member
    obtain ⟨home, l', early, registers⟩ := actors a member
    exact ⟨home, l', List.mem_append_left _ early, registers⟩
  cases l with
  | spawnNamed ref id parent kit =>
    cases act
    rcases spawnNamed_cases ref id parent kit s with ⟨memory, actor, made, free, spawned⟩ | ⟨taken, e, failed⟩
    · rw [spawned]
      have own : Label.registers id (.spawnNamed ref id parent kit) = true := by simp [Label.registers, made]
      exact ⟨address, deadLetter, pool_all_new older ⟨address, _, List.mem_append_right _ List.mem_cons_self, own⟩⟩
    · rw [failed]
      exact ⟨address, deadLetter, older⟩
  | actor n l =>
    simp only [step] at act
    split at act
    · cases act
    · rename_i a here
      obtain ⟨context, -, rfl⟩ := Option.map_eq_some_iff.1 act
      refine ⟨address, deadLetter, fun a' member => ?_⟩
      rcases List.mem_or_eq_of_mem_set member with old | rfl
      · exact older a' old
      · exact older a (List.mem_of_getElem? here)
  | send pid message =>
    cases act
    unfold sendUserMessage
    split <;> exact ⟨address, deadLetter, older⟩
  | remove pid =>
    cases act
    cases pid <;> exact ⟨address, deadLetter, older⟩

theorem known_run {before : List (Label U K σ C)} (run : Machine.Run step Machine.free s ls t) (known : Known before s) :
    Known (before ++ ls) t := by
  induction run generalizing before with
  | nil => rwa [List.append_nil]
  | cons act _ _ ih =>
    have later := ih (known_step known act)
    rwa [List.append_assoc, List.singleton_append] at later

theorem known_start : Known [] (start : ActorSystem U K σ C) :=
  ⟨rfl, rfl, fun _ member => absurd member List.not_mem_nil⟩

/-! ## What Stop does to the name -/

/-- A name is free exactly when the registry has no entry under it. -/
theorem freed_iff_find {pid : PID} (home : pid.address = s.registry.address) (dead : s.registry.deadLetter = .deadLetter) :
    Freed s pid ↔ s.registry.find pid.id = none := by
  constructor
  · intro freed
    have gone := freed.gone
    rw [ProcessRegistry.get_local _ home] at gone
    split at gone
    · assumption
    · cases gone
  · intro free
    have gone : s.registry.get (some pid) = (.deadLetter, false) := by
      rw [ProcessRegistry.get_local _ home, free, dead]
    refine ⟨gone, fun message => by simp only [sendUserMessage, gone], fun ref parent kit made => ?_⟩
    rcases spawnNamed_cases ref pid.id parent kit s with ⟨memory, actor, -, -, spawned⟩ | ⟨taken, -⟩
    · exact ⟨_, by rw [spawned]⟩
    · have entry := taken made
      rw [free] at entry
      cases entry

/-- **Stop frees no name.** After an actor has processed `Stop` its name is free exactly when a
`Remove` of that name, which no code of the actor makes, has come after the last spawn under it. -/
theorem stop_frees_iff {ls ls' : List (Label U K σ C)} {s₁ s₂ s₃ : ActorSystem U K σ C} {n : Nat} {message : Ptr U K}
    (before : Machine.Run step Machine.free start ls s₁) (act : step s₁ (.actor n (.system message)) = some s₂)
    (isStop : ActorContext.actualMessage message = .stop) (after : Machine.Run step Machine.free s₂ ls' s₃) :
    ∃ a, s₂.actors[n]? = some a ∧ a.context.state = .stopped ∧
      (Freed s₃ a.pid ↔ Vacated a.pid.id (ls ++ .actor n (.system message) :: ls')) := by
  have whole : Machine.Run step Machine.free start (ls ++ .actor n (.system message) :: ls') s₃ :=
    before.append (.cons act True.intro after)
  have known := known_step (known_run before known_start) act
  have home := known_run whole known_start
  simp only [step] at act
  split at act
  · cases act
  · rename_i a here
    obtain ⟨context, stopped, rfl⟩ := Option.map_eq_some_iff.1 act
    have rest := ActorContext.atRest_stop stopped isStop
    have put := pool_put here { a with context := context }
    refine ⟨{ a with context := context }, put, rest.stopped, ?_⟩
    obtain ⟨address, l, early, registers⟩ := known.2.2 _ (List.mem_of_getElem? put)
    have spawned : ∃ l ∈ ls ++ .actor n (.system message) :: ls', l.registers a.pid.id := by
      refine ⟨l, ?_, registers⟩
      rw [List.nil_append, List.mem_append, List.mem_singleton] at early
      rw [List.mem_append, List.mem_cons]
      exact early.imp_right .inl
    rw [freed_iff_find (address.trans home.1.symm) home.2.1, find_run a.pid.id whole]
    refine ⟨fun either => either.resolve_right fun none => ?_, .inl⟩
    obtain ⟨l, member, registers⟩ := spawned
    exact none.2 l member registers

/-- An actor that returns at once. -/
def idleKit : Kit Nat Nat Unit Unit := ⟨.plain, ActorContext.idle, ()⟩

def oneActor : ActorSystem Nat Nat Unit Unit := (start.spawnNamed 0 "a" none idleKit).2

/-- The system when its actor has processed `Stop`. -/
def oneStopped : ActorSystem Nat Nat Unit Unit :=
  { oneActor with actors := [⟨⟨0, "nonhost", "a"⟩, idleKit, ActorContext.stoppedIdle⟩] }

theorem oneActor_run : Machine.Run step Machine.free start [.spawnNamed 0 "a" none idleKit] oneActor :=
  .cons rfl True.intro (.nil _)

theorem oneActor_stop : step oneActor (.actor 0 (.system .stop)) = some oneStopped := rfl

theorem stop_frees_iff_idle : ∃ a, oneStopped.actors[0]? = some a ∧ a.context.state = .stopped ∧
    (Freed oneStopped a.pid ↔ Vacated a.pid.id ([.spawnNamed 0 "a" none idleKit] ++ .actor 0 (.system .stop) :: [])) :=
  stop_frees_iff oneActor_run oneActor_stop rfl (.nil _)

/-- The actor has processed `Stop`, and its name is as taken as before. -/
theorem name_stays_taken : ¬ ∀ (ls ls' : List (Label Nat Nat Unit Unit)) (s₁ s₂ s₃ : ActorSystem Nat Nat Unit Unit) (n : Nat)
    (message : Ptr Nat Nat), Machine.Run step Machine.free start ls s₁ → step s₁ (.actor n (.system message)) = some s₂ →
    ActorContext.actualMessage message = .stop → Machine.Run step Machine.free s₂ ls' s₃ →
    ∀ a ∈ s₂.actors[n]?, Freed s₃ a.pid := by
  intro all
  have freed := all _ _ _ _ _ 0 .stop oneActor_run oneActor_stop rfl (.nil _) _ rfl
  have gone := freed.gone
  have answer : oneStopped.registry.get (some ⟨0, "nonhost", "a"⟩) = (.actor 0, true) := rfl
  rw [answer] at gone
  cases gone

end Protoactor.Actor.ActorSystem
