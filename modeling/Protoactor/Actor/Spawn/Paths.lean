import Mathlib.Data.List.TakeWhile
import Protoactor.Lib.Machine
import Protoactor.Actor.Spawn.Named

/-!
# The ids of children

`SpawnNamed` of an `ActorContext` puts the id of the actor and a slash in front of the name. `Spawn` and
`SpawnPrefix` do so as well, and then call `SpawnNamed`. So an id is a path exactly below
actors that have all been spawned by `SpawnNamed` (`wellNamed_iff`).
-/

namespace Protoactor.Actor.Named
set_option autoImplicit false
open Lib

variable {P U K σ C : Type}

/-! ## Slashes -/

def slashes (id : String) : Nat := id.toList.count '/'

/-- The id without its last segment. -/
def withoutLast (id : String) : String := String.ofList (id.toList.reverse.dropWhile (· ≠ '/')).tail.reverse

theorem slashes_append (id name : String) : slashes (id ++ "/" ++ name) = slashes id + 1 + slashes name := by
  simp only [slashes, String.toList_append, List.count_append]
  rfl

theorem slashes_of_free {name : String} (free : '/' ∉ name.toList) : slashes name = 0 := List.count_eq_zero.2 free

theorem withoutLast_append (id : String) {name : String} (free : '/' ∉ name.toList) : withoutLast (id ++ "/" ++ name) = id := by
  have skipped : name.toList.reverse.dropWhile (· ≠ '/') = [] :=
    List.dropWhile_eq_nil_iff.2 fun c member => by
      have other : c ≠ '/' := fun same => free (same ▸ List.mem_reverse.1 member)
      simpa using other
  have text : (id ++ "/" ++ name).toList.reverse = name.toList.reverse ++ '/' :: id.toList.reverse := by
    simp only [String.toList_append, List.reverse_append]
    rfl
  have rest : (name.toList.reverse ++ '/' :: id.toList.reverse).dropWhile (· ≠ '/') = '/' :: id.toList.reverse := by
    rw [List.dropWhile_append, skipped]
    rfl
  rw [withoutLast, text, rest, List.tail_cons, List.reverse_reverse, String.ofList_toList]

/-- No digit is a slash. -/
theorem digit_ne_slash (i : Nat) : digit i ≠ '/' := by
  rw [digit, List.getD_eq_getElem?_getD]
  cases found : DIGITS.toList[i]? with
  | none => exact (by decide : '\x00' ≠ '/')
  | some c =>
    rintro rfl
    exact absurd (List.mem_of_getElem? found) (by decide)

theorem free_uint64ToIDLoop (u : UInt64) (result : String) (free : '/' ∉ result.toList) :
    '/' ∉ (ProcessRegistry.uint64ToIDLoop u result).toList := by
  have single : ∀ i, '/' ∉ (String.singleton (digit i)).toList := fun i => by
    rw [String.toList_singleton, List.mem_singleton]
    exact (digit_ne_slash i).symm
  induction u, result using ProcessRegistry.uint64ToIDLoop.induct with
  | case1 u result large ih =>
    rw [ProcessRegistry.uint64ToIDLoop, if_pos large]
    apply ih
    rw [String.toList_append, List.mem_append, not_or]
    exact ⟨single _, free⟩
  | case2 u result small =>
    rw [ProcessRegistry.uint64ToIDLoop, if_neg small, String.toList_append, List.mem_append, not_or]
    exact ⟨single _, free⟩

/-! ## A tree of actors -/

/-- The call that an actor is spawned by. -/
inductive How where
  | spawnNamed (id : String)
  | spawn
  | spawnPrefix (idPrefix : String)
  deriving DecidableEq, Repr

namespace How

/-- The call gives the id and leaves no other choice. -/
def direct : How → Bool
  | .spawnNamed _ => true
  | .spawn | .spawnPrefix _ => false

/-- No slash in the id or the prefix. -/
def slashFree : How → Prop
  | .spawnNamed id | .spawnPrefix id => '/' ∉ id.toList
  | .spawn => True

/-- The own name of the actor. -/
inductive Names : How → String → Prop
  | spawnNamed (id : String) : Names (.spawnNamed id) id
  | spawn (u : UInt64) : Names .spawn (ProcessRegistry.uint64ToID u)
  | spawnPrefix (idPrefix : String) (u : UInt64) : Names (.spawnPrefix idPrefix) (idPrefix ++ ProcessRegistry.uint64ToID u)

/-- What a child is registered under. -/
def childId (how : How) (parentId name : String) : String :=
  if how.direct then parentId ++ "/" ++ name else parentId ++ "/" ++ (parentId ++ "/" ++ name)

theorem Names.slashFree {how : How} {name : String} (names : how.Names name) (free : how.slashFree) : '/' ∉ name.toList := by
  have drawn : ∀ u, '/' ∉ (ProcessRegistry.uint64ToID u).toList := fun u => free_uint64ToIDLoop u "$" (by decide)
  cases names with
  | spawnNamed id => exact free
  | spawn u => exact drawn u
  | spawnPrefix idPrefix u =>
    rw [String.toList_append, List.mem_append, not_or]
    exact ⟨free, drawn u⟩

end How

/-- The call, with the PID of the new actor if there is one. -/
def System.enter (ref : Nat) (parent : Parent) (props : ActorProps U K σ C) (how : How) (s : System P U K σ C) :
    Option PID × System P U K σ C :=
  match how with
  | .spawnNamed id =>
    match s.spawnNamed ref parent props id with
    | (.ok (pid, .success), s) => (some pid, s)
    | (_, s) => (none, s)
  | .spawn =>
    match s.spawn ref parent props with
    | (.ok pid, s) => (some pid, s)
    | (_, s) => (none, s)
  | .spawnPrefix idPrefix =>
    match s.spawnPrefix ref parent props idPrefix with
    | (.ok pid, s) => (some pid, s)
    | (_, s) => (none, s)

/-- An actor of the tree: its context, who has spawned it, and how. -/
structure Node where
  context : Nat
  parent : Parent
  how : How
  deriving DecidableEq, Repr

structure Tree (P U K σ C : Type) where
  system : System P U K σ C
  nodes : List Node

inductive Label (P U K σ C : Type) where
  | enter (ref : Nat) (parent : Parent) (props : ActorProps U K σ C) (how : How)
  /-- anything else, which leaves the PIDs of the contexts alone -/
  | other (registry : ProcessRegistry (Process P)) (contexts : List (ActorContext U K σ C))

def step : Machine (Tree P U K σ C) (Label P U K σ C) := fun t l =>
  match l with
  | .enter ref parent props how =>
    match t.system.enter ref parent props how with
    | (some _, system) => some ⟨system, t.nodes ++ [⟨t.system.contexts.length, parent, how⟩]⟩
    | (none, system) => some { t with system := system }
  | .other registry contexts =>
    if contexts.map ActorContext.self = t.system.contexts.map ActorContext.self then
      some { t with system := { t.system with registry := registry, contexts := contexts } }
    else none

/-- Before the first spawn. -/
def start (registry : ProcessRegistry (Process P)) : Tree P U K σ C := ⟨⟨registry, [], [], []⟩, []⟩

/-- The name or prefix of the call has no slash. -/
def Label.slashFree : Label P U K σ C → Prop
  | .enter _ _ _ how => how.slashFree
  | .other _ _ => True

/-- The spawns between a root actor and the `n`-th context, the last one first, and the actor that
has made the last one. -/
inductive Path (nodes : List Node) : Nat → Option Nat → List How → Prop where
  | root {node : Node} (member : node ∈ nodes) (top : node.parent = .root) : Path nodes node.context none []
  | child {node : Node} {m : Nat} {above : Option Nat} {hows : List How} (member : node ∈ nodes)
      (parent : node.parent = .actor m) (path : Path nodes m above hows) : Path nodes node.context (some m) (node.how :: hows)

/-- **The id is a path**: it has a slash for each level, and without its last segment it is the id of the parent. -/
def WellNamed (t : Tree P U K σ C) (n : Nat) (parent : Option Nat) (depth : Nat) : Prop :=
  ∃ pid, t.system.self (.actor n) = some pid ∧ slashes pid.id = depth ∧
    ∀ m, parent = some m → ∃ above, t.system.self (.actor m) = some above ∧ withoutLast pid.id = above.id

/-! ## One spawn -/

/-- No context loses its PID. -/
def Keeps (s s' : System P U K σ C) : Prop := ∀ n pid, s.self (.actor n) = some pid → s'.self (.actor n) = some pid

theorem keeps_of_longer {s s' : System P U K σ C} (more : s.contexts <+: s'.contexts) : Keeps s s' := by
  intro n pid own
  obtain ⟨c, here, self⟩ := Option.bind_eq_some_iff.1 own
  obtain ⟨rest, same⟩ := more
  refine Option.bind_eq_some_iff.2 ⟨c, ?_, self⟩
  rw [← same, List.getElem?_append_left (List.getElem?_eq_some_iff.1 here).1]
  exact here

theorem keeps_pushBack (s : System P U K σ C) (parent : Parent) (pid : PID) : Keeps s (s.pushBack parent pid) := by
  intro n own here
  cases parent with
  | root => exact here
  | actor m =>
    obtain ⟨c, there, self⟩ := Option.bind_eq_some_iff.1 here
    refine Option.bind_eq_some_iff.2 ⟨if m = n then adopt pid c else c, ?_, ?_⟩
    · show (List.modify _ m _)[n]? = _
      rw [List.getElem?_modify, there]
      rfl
    · split <;> exact self

/-- `SpawnNamed`: whether there is a new actor, and then its PID. -/
theorem spawnNamed_enters (ref : Nat) (parent : Parent) (props : ActorProps U K σ C) (id : String) (s : System P U K σ C) :
    Keeps s (s.spawnNamed ref parent props id).2 ∧
      ∀ pid, (s.spawnNamed ref parent props id).1 = .ok (pid, .success) → s.prefixed parent id = some pid.id ∧
        (s.spawnNamed ref parent props id).2.self (.actor s.contexts.length) = some pid := by
  unfold System.spawnNamed
  cases named : s.prefixed parent id with
  | none => exact ⟨fun _ _ own => own, nofun⟩
  | some fullId =>
    dsimp only
    generalize result : s.defaultSpawner ref fullId props (s.self parent) = r
    have spawns := result ▸ defaultSpawner_spawns ref fullId props (s.self parent) s
    cases spawns with
    | threw throws unchanged => exact ⟨keeps_of_longer unchanged.contexts, nofun⟩
    | taken quiet found unchanged =>
      refine ⟨keeps_of_longer unchanged.contexts, fun pid made => ?_⟩
      cases (Prod.mk.inj (Except.ok.inj made)).2
    | entered quiet mailbox free pushed user =>
      refine ⟨fun n pid own => keeps_pushBack _ _ _ n pid (keeps_of_longer (List.prefix_append _ _) n pid own), ?_⟩
      rintro pid ⟨rfl⟩
      refine ⟨rfl, keeps_pushBack _ _ _ _ _ ?_⟩
      exact Option.bind_eq_some_iff.2 ⟨_, List.getElem?_concat_length, rfl⟩

/-- `SpawnPrefix`: the id of an `ActorContext` is put in front twice. -/
theorem spawnPrefix_enters (ref : Nat) (parent : Parent) (props : ActorProps U K σ C) (idPrefix : String) (s : System P U K σ C) :
    Keeps s (s.spawnPrefix ref parent props idPrefix).2 ∧
      ∀ pid, (s.spawnPrefix ref parent props idPrefix).1 = .ok pid →
        (∃ name, s.prefixed parent (idPrefix ++ s.registry.nextID.1) = some name ∧ s.prefixed parent name = some pid.id) ∧
        (s.spawnPrefix ref parent props idPrefix).2.self (.actor s.contexts.length) = some pid := by
  unfold System.spawnPrefix
  dsimp only
  have same : ∀ id, ({ s with registry := s.registry.nextID.2 } : System P U K σ C).prefixed parent id = s.prefixed parent id := by
    intro id
    cases parent <;> rfl
  rw [same]
  cases named : s.prefixed parent (idPrefix ++ s.registry.nextID.1) with
  | none => exact ⟨fun _ _ own => own, nofun⟩
  | some name =>
    dsimp only
    have enters := spawnNamed_enters ref parent props name { s with registry := s.registry.nextID.2 }
    rw [same] at enters
    generalize { s with registry := s.registry.nextID.2 }.spawnNamed ref parent props name = r at enters ⊢
    obtain ⟨keeps, made⟩ := enters
    split
    · rename_i pid s'
      refine ⟨keeps, ?_⟩
      rintro pid' ⟨rfl⟩
      exact ⟨⟨name, rfl, (made _ rfl).1⟩, (made _ rfl).2⟩
    · exact ⟨keeps, nofun⟩
    · exact ⟨keeps, nofun⟩

/-- What a new actor is called below its parent. -/
def Called (s : System P U K σ C) (parent : Parent) (how : How) (id : String) : Prop :=
  ∃ name, how.Names name ∧
    match parent with
    | .root => id = name
    | .actor n => ∃ above, s.self (.actor n) = some above ∧ id = how.childId above.id name

theorem called_of_prefixed {s : System P U K σ C} {parent : Parent} {how : How} {name id : String} (direct : how.direct = true)
    (names : how.Names name) (named : s.prefixed parent name = some id) : Called s parent how id := by
  refine ⟨name, names, ?_⟩
  cases parent with
  | root => exact (Option.some.inj named).symm
  | actor n =>
    obtain ⟨above, own, rfl⟩ := Option.map_eq_some_iff.1 named
    exact ⟨above, own, (if_pos direct).symm⟩

theorem called_of_prefixed_twice {s : System P U K σ C} {parent : Parent} {how : How} {name id : String}
    (drawn : how.direct = false) (names : how.Names name)
    (named : ∃ full, s.prefixed parent name = some full ∧ s.prefixed parent full = some id) : Called s parent how id := by
  obtain ⟨full, first, second⟩ := named
  refine ⟨name, names, ?_⟩
  cases parent with
  | root =>
    cases first
    exact (Option.some.inj second).symm
  | actor n =>
    obtain ⟨above, own, rfl⟩ := Option.map_eq_some_iff.1 first
    obtain ⟨above', own', rfl⟩ := Option.map_eq_some_iff.1 second
    cases own.symm.trans own'
    refine ⟨above, own, (if_neg ?_).symm⟩
    rw [drawn]
    exact Bool.false_ne_true

/-- A spawn leaves the PIDs, and calls a new actor as its parent and the call say. -/
theorem enter_spec (ref : Nat) (parent : Parent) (props : ActorProps U K σ C) (how : How) (s : System P U K σ C) :
    Keeps s (s.enter ref parent props how).2 ∧
      ∀ pid, (s.enter ref parent props how).1 = some pid →
        Called s parent how pid.id ∧ (s.enter ref parent props how).2.self (.actor s.contexts.length) = some pid := by
  cases how with
  | spawnNamed id =>
    have enters := spawnNamed_enters ref parent props id s
    unfold System.enter
    dsimp only
    generalize s.spawnNamed ref parent props id = r at enters ⊢
    obtain ⟨keeps, made⟩ := enters
    split
    · refine ⟨keeps, ?_⟩
      rintro pid ⟨rfl⟩
      exact ⟨called_of_prefixed rfl (.spawnNamed id) (made _ rfl).1, (made _ rfl).2⟩
    · exact ⟨keeps, nofun⟩
  | spawn =>
    have enters := spawnPrefix_enters ref parent props "" s
    unfold System.enter
    dsimp only [System.spawn]
    generalize s.spawnPrefix ref parent props "" = r at enters ⊢
    obtain ⟨keeps, made⟩ := enters
    split
    · refine ⟨keeps, ?_⟩
      rintro pid ⟨rfl⟩
      obtain ⟨named, own⟩ := made _ rfl
      rw [String.empty_append] at named
      exact ⟨called_of_prefixed_twice rfl (.spawn _) named, own⟩
    · exact ⟨keeps, nofun⟩
  | spawnPrefix idPrefix =>
    have enters := spawnPrefix_enters ref parent props idPrefix s
    unfold System.enter
    dsimp only
    generalize s.spawnPrefix ref parent props idPrefix = r at enters ⊢
    obtain ⟨keeps, made⟩ := enters
    split
    · refine ⟨keeps, ?_⟩
      rintro pid ⟨rfl⟩
      obtain ⟨named, own⟩ := made _ rfl
      exact ⟨called_of_prefixed_twice rfl (.spawnPrefix idPrefix _) named, own⟩
    · exact ⟨keeps, nofun⟩

/-! ## The whole tree -/

/-- Every actor of the tree is called as its parent and its spawn say. -/
def Rooted (t : Tree P U K σ C) : Prop :=
  ∀ node ∈ t.nodes, node.how.slashFree ∧
    ∃ pid, t.system.self (.actor node.context) = some pid ∧ Called t.system node.parent node.how pid.id

theorem Called.mono {s s' : System P U K σ C} {parent : Parent} {how : How} {id : String} (called : Called s parent how id)
    (keeps : Keeps s s') : Called s' parent how id := by
  obtain ⟨name, names, same⟩ := called
  refine ⟨name, names, ?_⟩
  cases parent with
  | root => exact same
  | actor n =>
    obtain ⟨above, own, id⟩ := same
    exact ⟨above, keeps n above own, id⟩

theorem Rooted.mono {t : Tree P U K σ C} (rooted : Rooted t) {s : System P U K σ C} (keeps : Keeps t.system s) :
    Rooted { t with system := s } := by
  intro node member
  obtain ⟨free, pid, own, called⟩ := rooted node member
  exact ⟨free, pid, keeps _ pid own, called.mono keeps⟩

theorem rooted_keeps : Machine.Keeps (step (P := P) (U := U) (K := K) (σ := σ) (C := C)) (fun _ l => l.slashFree) Rooted := by
  intro t l t' rooted allowed act
  cases l with
  | enter ref parent props how =>
    have spec := enter_spec ref parent props how t.system
    simp only [step] at act
    generalize t.system.enter ref parent props how = r at act spec
    obtain ⟨keeps, made⟩ := spec
    split at act
    · cases act
      intro node member
      rcases List.mem_append.1 member with old | new
      · exact rooted.mono keeps node old
      · cases List.mem_singleton.1 new
        obtain ⟨called, own⟩ := made _ rfl
        exact ⟨allowed, _, own, called.mono keeps⟩
    · cases act
      exact rooted.mono keeps
  | other registry contexts =>
    simp only [step] at act
    split at act
    · rename_i same
      cases act
      refine rooted.mono fun n pid own => ?_
      have entry : (contexts.map ActorContext.self)[n]? = (t.system.contexts.map ActorContext.self)[n]? := by rw [same]
      rw [List.getElem?_map, List.getElem?_map] at entry
      obtain ⟨c, here, self⟩ := Option.bind_eq_some_iff.1 own
      rw [here, Option.map_some, self] at entry
      obtain ⟨c', here', self'⟩ := Option.map_eq_some_iff.1 entry
      exact Option.bind_eq_some_iff.2 ⟨c', here', self'⟩
    · cases act

/-- Below a root actor there is a slash for each level, or more than that. -/
theorem Path.slashes {t : Tree P U K σ C} (rooted : Rooted t) {n : Nat} {parent : Option Nat} {hows : List How}
    (path : Path t.nodes n parent hows) :
    ∃ pid, t.system.self (.actor n) = some pid ∧ ((∀ how ∈ hows, how.direct) → Named.slashes pid.id = hows.length) ∧
      (¬ (∀ how ∈ hows, how.direct) → hows.length < Named.slashes pid.id) := by
  induction path with
  | root member top =>
    obtain ⟨free, pid, own, name, names, called⟩ := rooted _ member
    rw [top] at called
    dsimp only at called
    refine ⟨pid, own, fun _ => ?_, fun some => absurd (fun _ none => absurd none List.not_mem_nil) some⟩
    rw [called]
    exact slashes_of_free (names.slashFree free)
  | @child node m above hows member parent path ih =>
    obtain ⟨free, pid, own, name, names, called⟩ := rooted _ member
    rw [parent] at called
    obtain ⟨ppid, here, text⟩ := called
    obtain ⟨ppid', here', direct, more⟩ := ih
    cases here.symm.trans here'
    have none := slashes_of_free (names.slashFree free)
    have least : hows.length ≤ Named.slashes ppid.id := by
      by_cases all : ∀ how ∈ hows, how.direct
      · exact (direct all).ge
      · exact (more all).le
    refine ⟨pid, own, fun all => ?_, fun some => ?_⟩
    · have own : node.how.direct = true := all _ List.mem_cons_self
      rw [text, How.childId, if_pos own, slashes_append, none, direct fun how member => all how (List.mem_cons_of_mem _ member),
        List.length_cons]
    · rw [text, How.childId, List.length_cons]
      split
      · rename_i own
        have above : ¬ ∀ how ∈ hows, how.direct := fun all => some fun how member =>
          (List.mem_cons.1 member).elim (fun same => same ▸ own) (all how)
        have longer := more above
        rw [slashes_append]
        omega
      · rw [slashes_append, slashes_append]
        omega

/-- The last segment of an id is what the parent calls the actor. -/
theorem Path.withoutLast {t : Tree P U K σ C} (rooted : Rooted t) {n m : Nat} {hows : List How}
    (path : Path t.nodes n (some m) hows) (all : ∀ how ∈ hows, how.direct) :
    ∃ pid above, t.system.self (.actor n) = some pid ∧ t.system.self (.actor m) = some above ∧
      Named.withoutLast pid.id = above.id := by
  cases path with
  | child member parent path =>
    obtain ⟨free, pid, own, name, names, called⟩ := rooted _ member
    rw [parent] at called
    obtain ⟨above, here, text⟩ := called
    refine ⟨pid, above, own, here, ?_⟩
    rw [text, How.childId, if_pos (all _ List.mem_cons_self)]
    exact withoutLast_append above.id (names.slashFree free)

/-- **Exactly where** each actor between the root actor and this one has been spawned by a call of
`SpawnNamed` is the id a path. -/
theorem wellNamed_iff {registry : ProcessRegistry (Process P)} {ls : List (Label P U K σ C)} {t : Tree P U K σ C}
    (run : Machine.Run step (fun _ l => l.slashFree) (start registry) ls t) {n : Nat} {parent : Option Nat} {hows : List How}
    (path : Path t.nodes n parent hows) : WellNamed t n parent hows.length ↔ ∀ how ∈ hows, how.direct := by
  have rooted : Rooted t := run.keeps rooted_keeps fun node member => absurd member List.not_mem_nil
  obtain ⟨pid, own, direct, more⟩ := path.slashes rooted
  constructor
  · rintro ⟨pid', own', depth, -⟩
    cases own.symm.trans own'
    by_contra some
    exact absurd depth (more some).ne'
  · intro all
    refine ⟨pid, own, direct all, ?_⟩
    rintro m rfl
    obtain ⟨pid', above, own', here, same⟩ := path.withoutLast rooted all
    cases own.symm.trans own'
    exact ⟨above, here, same⟩

/-- A run from an empty system. -/
def grow (ls : List (Label Unit Nat Nat Unit Unit)) : Option (Tree Unit Nat Nat Unit Unit) :=
  Machine.exec step ls (start (.new (.other ())))

/-- `a` and its child `a/b`. -/
theorem wellNamed_iff_child : ∃ t, grow [.enter 0 .root idleProps (.spawnNamed "a"), .enter 1 (.actor 0) idleProps (.spawnNamed "b")] = some t ∧
    WellNamed t 1 (some 0) 1 := by
  obtain ⟨t, ran⟩ := Option.isSome_iff_exists.1 (by decide :
    (grow [.enter 0 .root idleProps (.spawnNamed "a"), .enter 1 (.actor 0) idleProps (.spawnNamed "b")]).isSome)
  have nodes : (some t).map Tree.nodes = some [⟨0, .root, .spawnNamed "a"⟩, ⟨1, .actor 0, .spawnNamed "b"⟩] := by
    rw [← ran]
    decide
  rw [Option.map_some, Option.some.injEq] at nodes
  have top : Path t.nodes 0 none [] := by
    rw [nodes]
    exact .root List.mem_cons_self rfl
  have path : Path t.nodes 1 (some 0) [.spawnNamed "b"] := by
    rw [nodes] at top ⊢
    exact .child (List.mem_cons_of_mem _ List.mem_cons_self) rfl top
  refine ⟨t, ran, (wellNamed_iff (Machine.run_of_exec ran fun l member => ?_) path).2 (by decide)⟩
  simp only [List.mem_cons, List.not_mem_nil, or_false] at member
  rcases member with rfl | rfl
  · exact (by decide : '/' ∉ "a".toList)
  · exact (by decide : '/' ∉ "b".toList)

/-- The child that `a` spawns without a name is `a/a/1$`. -/
theorem not_wellNamed_spawn : ∃ t, grow [.enter 0 .root idleProps (.spawnNamed "a"), .enter 1 (.actor 0) idleProps .spawn] = some t ∧
    t.nodes = [⟨0, .root, .spawnNamed "a"⟩, ⟨1, .actor 0, .spawn⟩] ∧ ¬ WellNamed t 1 (some 0) 1 := by
  obtain ⟨t, ran⟩ := Option.isSome_iff_exists.1 (by decide +kernel :
    (grow [.enter 0 .root idleProps (.spawnNamed "a"), .enter 1 (.actor 0) idleProps .spawn]).isSome)
  have nodes : (some t).map Tree.nodes = some [⟨0, .root, .spawnNamed "a"⟩, ⟨1, .actor 0, .spawn⟩] := by
    rw [← ran]
    decide +kernel
  have self : (some t).map (fun t => t.system.self (.actor 1)) = some (some ⟨1, localAddress, "a/a/1$"⟩) := by
    rw [← ran]
    decide +kernel
  rw [Option.map_some, Option.some.injEq] at nodes self
  refine ⟨t, ran, nodes, ?_⟩
  rintro ⟨pid, own, depth, -⟩
  cases self.symm.trans own
  exact absurd depth (by decide)

end Protoactor.Actor.Named
