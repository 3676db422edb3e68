import Protoactor.Lib.Machine
import Protoactor.Lib.Pool

/-!
# Loops under one flag

A flag is the guard of a start, the request of a stop and the condition of the loops that the starts
have launched. A start tests the flag, prepares, sets the flag and launches a loop, each a step of its
own; a loop tests the flag, works and sleeps. Any number of threads start and stop.

Two loops are live at once where a start passes its test while a loop is live, or while another start
is under way (`two_live`), and only there (`Alone.one`).
-/

namespace Protoactor.Lib.FlagLoop
set_option autoImplicit false

/-- What the program does besides, to data of type `D`: a start with an `A` before it sets the flag, a
stop after it has cleared the flag, and a loop that is given a `W`. -/
structure Program (A D W : Type) where
  prepare : A → D → D
  finish : D → D
  work : W → D → D

/-- What a calling thread is about to do. -/
inductive Caller (A : Type) where
  | idle
  | preparing (a : A)
  | storing
  | launching
  | finishing

inductive Phase where
  | testing
  | working
  | sleeping
  | ended
  deriving DecidableEq, Repr

variable {A D W : Type}

/-- A start that has passed its test and not launched its loop. -/
def Caller.starting : Caller A → Bool
  | .preparing _ | .storing | .launching => true
  | _ => false

/-- A loop that has not found the flag cleared. -/
def Phase.live : Phase → Bool
  | .ended => false
  | _ => true

structure State (A D : Type) where
  flag : Bool
  callers : Nat → Caller A
  loops : List Phase
  data : D

inductive Label (A W : Type) where
  | start (i : Nat) (a : A)
  | stop (i : Nat)
  /-- the next step of a call -/
  | run (i : Nat)
  /-- the next step of a loop -/
  | loop (n : Nat) (w : W)

def State.put (i : Nat) (caller : Caller A) (s : State A D) : State A D :=
  { s with callers := fun j => if j = i then caller else s.callers j }

def State.move (n : Nat) (phase : Phase) (s : State A D) : State A D := { s with loops := s.loops.set n phase }

def step (p : Program A D W) : Machine (State A D) (Label A W) := fun s l =>
  match l with
  | .start i a =>
    match s.callers i with
    | .idle => if s.flag then some s else some (s.put i (.preparing a))
    | _ => none
  | .stop i =>
    match s.callers i with
    | .idle => some ({ s with flag := false }.put i .finishing)
    | _ => none
  | .run i =>
    match s.callers i with
    | .idle => none
    | .preparing a => some ({ s with data := p.prepare a s.data }.put i .storing)
    | .storing => some ({ s with flag := true }.put i .launching)
    | .launching => some ({ s with loops := s.loops ++ [Phase.testing] }.put i .idle)
    | .finishing => some ({ s with data := p.finish s.data }.put i .idle)
  | .loop n w =>
    match s.loops[n]? with
    | none => none
    | some .testing => some (s.move n (if s.flag then .working else .ended))
    | some .working => some ({ s with data := p.work w s.data }.move n .sleeping)
    | some .sleeping => some (s.move n .testing)
    | some .ended => none

/-- The flag cleared, nobody calling and no loop. -/
def init (d : D) : State A D := ⟨false, fun _ => .idle, [], d⟩

/-- A start that passes the test does so when no loop is live and no other start is under way. -/
def alone (s : State A D) : Label A W → Prop
  | .start _ _ => s.flag = false → s.loops.countP Phase.live = 0 ∧ ∀ j, (s.callers j).starting = false
  | _ => True

theorem put_callers (i j : Nat) (caller : Caller A) (s : State A D) :
    (s.put i caller).callers j = if j = i then caller else s.callers j := rfl

@[simp] theorem put_own (i : Nat) (caller : Caller A) (s : State A D) : (s.put i caller).callers i = caller := if_pos rfl

/-! ## One loop -/

/-- Live loops and starts under way are at most one in all. -/
structure Inv (s : State A D) : Prop where
  loops : s.loops.countP Phase.live ≤ 1
  starts : ∀ i j, (s.callers i).starting = true → (s.callers j).starting = true → i = j
  none : ∀ i, (s.callers i).starting = true → s.loops.countP Phase.live = 0

theorem inv_init (d : D) : Inv (init d : State A D) := by
  constructor <;> simp [init, Caller.starting]

/-- A thread that starts as much as before, and loops of which no more are live. -/
theorem Inv.less {s s' : State A D} (inv : Inv s)
    (callers : ∀ j, (s'.callers j).starting = true → (s.callers j).starting = true)
    (loops : s'.loops.countP Phase.live ≤ s.loops.countP Phase.live) : Inv s' := by
  constructor
  case loops => exact Nat.le_trans loops inv.loops
  case starts => exact fun i j here there => inv.starts i j (callers i here) (callers j there)
  case none => exact fun i here => Nat.le_zero.1 (Nat.le_trans loops (Nat.le_of_eq (inv.none i (callers i here))))

/-- The threads after one of them has gone on. -/
theorem put_starting {s : State A D} {i : Nat} {caller : Caller A}
    (own : caller.starting = true → (s.callers i).starting = true) (j : Nat)
    (there : ((s.put i caller).callers j).starting = true) : (s.callers j).starting = true := by
  rw [put_callers] at there
  split at there
  · rename_i same
    exact same ▸ own there
  · exact there

/-- A loop that goes on is live before. -/
theorem move_live {s : State A D} {n : Nat} {before : Phase} (here : s.loops[n]? = some before) (alive : before.live = true)
    (phase : Phase) : (s.move n phase).loops.countP Phase.live ≤ s.loops.countP Phase.live := by
  have count := pool_count here phase Phase.live
  rw [if_pos alive] at count
  change (s.loops.set n phase).countP Phase.live ≤ _
  split at count <;> omega

/-- A start passes its test, and nobody else is there. -/
theorem Inv.passed {s : State A D} (inv : Inv s) (quiet : s.loops.countP Phase.live = 0)
    (nobody : ∀ j, (s.callers j).starting = false) {i : Nat} {a : A} : Inv (s.put i (.preparing a)) := by
  have only : ∀ j, ((s.put i (.preparing a)).callers j).starting = true → j = i := by
    intro j there
    rw [put_callers] at there
    split at there
    · assumption
    · exact absurd there (by simp [nobody j])
  constructor
  case loops => exact inv.loops
  case starts => exact fun j k here there => (only j here).trans (only k there).symm
  case none => exact fun _ _ => quiet

/-- The loop takes the place of its start. -/
theorem Inv.launched {s : State A D} {i : Nat} (inv : Inv s) (at_ : s.callers i = .launching) :
    Inv ({ s with loops := s.loops ++ [Phase.testing] }.put i .idle) := by
  have own : (s.callers i).starting = true := by simp [at_, Caller.starting]
  have quiet := inv.none i own
  have nobody : ∀ j, (({ s with loops := s.loops ++ [Phase.testing] }.put i .idle).callers j).starting = false := by
    intro j
    rw [put_callers]
    split
    · rfl
    · rename_i other
      cases starting : (s.callers j).starting with
      | false => rfl
      | true => exact absurd (inv.starts j i starting own) other
  constructor
  case loops =>
    change (s.loops ++ [Phase.testing]).countP Phase.live ≤ 1
    rw [List.countP_append, quiet]
    decide
  case starts => exact fun j k here => absurd here (by simp [nobody j])
  case none => exact fun j here => absurd here (by simp [nobody j])

theorem keeps_inv (p : Program A D W) : Machine.Keeps (step p) alone (Inv (A := A) (D := D)) := by
  intro s l s' inv allowed next
  cases l with
  | start i a =>
    simp only [step] at next
    split at next
    · split at next
      · cases next
        exact inv
      · rename_i down
        obtain ⟨quiet, nobody⟩ := allowed (by simpa using down)
        cases next
        exact inv.passed quiet nobody
    · cases next
  | stop i =>
    simp only [step] at next
    split at next
    · cases next
      exact inv.less (put_starting (by simp [Caller.starting])) (Nat.le_refl _)
    · cases next
  | run i =>
    simp only [step] at next
    split at next
    · cases next
    · rename_i a at_
      cases next
      exact inv.less (put_starting (by simp [at_, Caller.starting])) (Nat.le_refl _)
    · rename_i at_
      cases next
      exact inv.less (put_starting (by simp [at_, Caller.starting])) (Nat.le_refl _)
    · rename_i at_
      cases next
      exact inv.launched at_
    · rename_i at_
      cases next
      exact inv.less (put_starting (by simp [Caller.starting])) (Nat.le_refl _)
  | loop n w =>
    simp only [step] at next
    split at next
    · cases next
    · rename_i here
      cases next
      exact inv.less (fun j there => there) (move_live here rfl _)
    · rename_i here
      cases next
      exact inv.less (fun j there => there) (move_live (s := { s with data := p.work w s.data }) here rfl _)
    · rename_i here
      cases next
      exact inv.less (fun j there => there) (move_live here rfl _)
    · cases next

/-- **At most one loop is live** in a run whose starts pass their tests alone. -/
theorem one_live {p : Program A D W} {d : D} {ls : List (Label A W)} {t : State A D}
    (run : Machine.Run (step p) alone (init d) ls t) : t.loops.countP Phase.live ≤ 1 :=
  (run.keeps (keeps_inv p) (inv_init d)).loops

/-! ## Two loops -/

/-- The call of thread `i` can go on, alone, until there is one more live loop. -/
def Launches (p : Program A D W) (i : Nat) (s : State A D) : Prop :=
  ∃ ls t, Machine.Run (step p) Machine.free s ls t ∧ t.loops.countP Phase.live = s.loops.countP Phase.live + 1 ∧
    ∀ j, j ≠ i → t.callers j = s.callers j

theorem Launches.run {p : Program A D W} {i : Nat} {s s' : State A D} {caller : Caller A}
    (next : step p s (.run i) = some (s'.put i caller)) (loops : s'.loops = s.loops) (callers : s'.callers = s.callers)
    (rest : Launches p i (s'.put i caller)) : Launches p i s := by
  obtain ⟨ls, t, run, count, others⟩ := rest
  refine ⟨_, t, .cons next True.intro run, ?_, fun j other => ?_⟩
  · rw [count]
    exact congrArg (fun loops => loops.countP Phase.live + 1) loops
  · rw [others j other, put_callers, if_neg other, callers]

theorem launches_launching {p : Program A D W} {i : Nat} {s : State A D} (at_ : s.callers i = .launching) : Launches p i s := by
  have next : step p s (.run i) = some ({ s with loops := s.loops ++ [Phase.testing] }.put i .idle) := by simp only [step, at_]
  refine ⟨[.run i], _, .cons next True.intro (.nil _), ?_, fun j other => if_neg other⟩
  change (s.loops ++ [Phase.testing]).countP Phase.live = _
  rw [List.countP_append]
  rfl

theorem launches_storing {p : Program A D W} {i : Nat} {s : State A D} (at_ : s.callers i = .storing) : Launches p i s := by
  have next : step p s (.run i) = some ({ s with flag := true }.put i .launching) := by simp only [step, at_]
  exact .run next rfl rfl (launches_launching (put_own ..))

/-- A start that is under way launches its loop. -/
theorem launches (p : Program A D W) {s : State A D} {i : Nat} (under : (s.callers i).starting = true) : Launches p i s := by
  cases at_ : s.callers i with
  | idle => rw [at_] at under; cases under
  | finishing => rw [at_] at under; cases under
  | launching => exact launches_launching at_
  | storing => exact launches_storing at_
  | preparing a =>
    have next : step p s (.run i) = some ({ s with data := p.prepare a s.data }.put i .storing) := by simp only [step, at_]
    exact .run next rfl rfl (launches_storing (put_own ..))

/-- **Otherwise two loops can be live**, from any state in which a start passes its test and is not alone. -/
theorem two_live (p : Program A D W) {s : State A D} {i : Nat} {a : A} (free_ : s.callers i = .idle) (down : s.flag = false)
    (crowd : ¬ alone s (.start i a : Label A W)) :
    ∃ ls t, Machine.Run (step p) Machine.free s ls t ∧ 2 ≤ t.loops.countP Phase.live := by
  have next : step p s (.start i a) = some (s.put i (.preparing a)) := by simp [step, free_, down]
  obtain ⟨ls, t, run, count, others⟩ := launches p (s := s.put i (.preparing a)) (i := i) (by rw [put_own]; rfl)
  have first := Machine.Run.cons next True.intro run
  by_cases quiet : s.loops.countP Phase.live = 0
  · -- the other start launches its loop too
    have another : ∃ j, (s.callers j).starting = true := by
      refine Classical.byContradiction fun nobody => crowd fun _ => ⟨quiet, fun j => ?_⟩
      exact Bool.eq_false_iff.2 fun starting => nobody ⟨j, starting⟩
    obtain ⟨j, starting⟩ := another
    have other : j ≠ i := by
      rintro rfl
      rw [free_] at starting
      cases starting
    have still : (t.callers j).starting = true := by
      rw [others j other, put_callers, if_neg other]
      exact starting
    obtain ⟨ls', t', run', count', _⟩ := launches p still
    exact ⟨_, t', first.append run', by omega⟩
  · have there : (s.put i (.preparing a)).loops = s.loops := rfl
    rw [there] at count
    exact ⟨_, t, first, by omega⟩

end Protoactor.Lib.FlagLoop
