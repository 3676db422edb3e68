/-!
# One direction of a stream

Messages are read in the order in which they were written. A cut of the connection loses the last
of those that are under way, and nothing can be written after it. That what was read and what is
under way is a prefix of what was written is part of a `Fifo`.
-/

namespace Protoactor.Lib
set_option autoImplicit false

structure Fifo (A : Type) where
  inFlight : List A
  /-- auxiliary: all that was written -/
  written : List A
  /-- auxiliary: all that was read -/
  read : List A
  cut : Bool
  ordered : read ++ inFlight <+: written
  whole : cut = false → read ++ inFlight = written

namespace Fifo

variable {A : Type}

def empty : Fifo A := ⟨[], [], [], false, List.prefix_refl _, fun _ => rfl⟩

/-- Write a message, with the answer. -/
def push (a : A) (f : Fifo A) : Bool × Fifo A :=
  if up : f.cut = false then
    (true,
      { f with
        inFlight := f.inFlight ++ [a]
        written := f.written ++ [a]
        ordered := by simp only [← List.append_assoc, f.whole up, List.prefix_refl]
        whole := fun _ => by rw [← List.append_assoc, f.whole up] })
  else (false, f)

/-- Read the first message. -/
def pop (f : Fifo A) : Option (A × Fifo A) :=
  match here : f.inFlight with
  | [] => none
  | a :: rest =>
    some (a,
      { f with
        inFlight := rest
        read := f.read ++ [a]
        ordered := by rw [List.append_assoc, List.singleton_append, ← here]; exact f.ordered
        whole := fun up => by rw [List.append_assoc, List.singleton_append, ← here]; exact f.whole up })

/-- Cut the connection; of the messages under way the first `keep` arrive. -/
def sever (keep : Nat) (f : Fifo A) : Fifo A :=
  { f with
    inFlight := f.inFlight.take keep
    cut := true
    ordered := ((List.prefix_append_right_inj _).2 (List.take_prefix ..)).trans f.ordered
    whole := fun up => by cases up }

@[simp] theorem empty_inFlight : (empty : Fifo A).inFlight = [] := rfl
@[simp] theorem empty_written : (empty : Fifo A).written = [] := rfl
@[simp] theorem empty_read : (empty : Fifo A).read = [] := rfl
@[simp] theorem empty_cut : (empty : Fifo A).cut = false := rfl

@[simp] theorem sever_written (keep : Nat) (f : Fifo A) : (f.sever keep).written = f.written := rfl
@[simp] theorem sever_read (keep : Nat) (f : Fifo A) : (f.sever keep).read = f.read := rfl
@[simp] theorem sever_cut (keep : Nat) (f : Fifo A) : (f.sever keep).cut = true := rfl

/-- What a write does. -/
theorem push_cases (a : A) (f : Fifo A) :
    (f.push a).1 = true ∧ f.cut = false ∧ (f.push a).2.inFlight = f.inFlight ++ [a] ∧ (f.push a).2.written = f.written ++ [a] ∧
        (f.push a).2.read = f.read ∧ (f.push a).2.cut = false ∨
      (f.push a).1 = false ∧ f.cut = true ∧ (f.push a).2 = f := by
  unfold push
  split
  · rename_i up
    exact .inl ⟨rfl, up, rfl, rfl, rfl, up⟩
  · rename_i down
    exact .inr ⟨rfl, by simpa using down, rfl⟩

theorem push_read (a : A) (f : Fifo A) : (f.push a).2.read = f.read := by
  rcases push_cases a f with ⟨_, _, _, _, same, _⟩ | ⟨_, _, same⟩
  · exact same
  · rw [same]

/-- What a read does. -/
theorem pop_some {f f' : Fifo A} {a : A} (h : f.pop = some (a, f')) :
    f.inFlight = a :: f'.inFlight ∧ f'.written = f.written ∧ f'.read = f.read ++ [a] ∧ f'.cut = f.cut := by
  unfold pop at h
  split at h
  · cases h
  · rename_i here
    cases h
    exact ⟨here, rfl, rfl, rfl⟩

theorem pop_none {f : Fifo A} : f.pop = none ↔ f.inFlight = [] := by
  unfold pop
  split
  · rename_i here
    exact ⟨fun _ => here, fun _ => rfl⟩
  · rename_i here
    exact ⟨nofun, fun none => by rw [none] at here; cases here⟩

theorem read_prefix (f : Fifo A) : f.read <+: f.written := (List.prefix_append ..).trans f.ordered

/-- Nothing was read of what nobody wrote. -/
theorem unwritten {f : Fifo A} (none : f.written = []) : f.read = [] ∧ f.inFlight = [] := by
  have all := f.ordered
  rw [none, List.prefix_nil, List.append_eq_nil_iff] at all
  exact all

/-- When all that was written was read, nothing is under way. -/
theorem drained {f : Fifo A} (all : f.read = f.written) : f.inFlight = [] := by
  have short := f.ordered.length_le
  rw [List.length_append, all] at short
  exact List.length_eq_zero_iff.1 (by omega)

end Fifo

end Protoactor.Lib
