/-!
# Message queues (`src/actor/queue.cpp`)

`UnboundedQueue` and `MPSCQueueImpl` are both a `std::queue` of `std::shared_ptr<void>`
under a mutex; each operation is one critical section. An item is an `Option`: `none`
is the null pointer, which `Pop` also returns for an empty queue.
-/

namespace Protoactor.Actor
set_option autoImplicit false

/-- The contents of a queue, oldest item first. -/
abbrev Queue (M : Type) := List (Option M)

namespace Queue

variable {M : Type}

def push (q : Queue M) (item : Option M) : Queue M := q ++ [item]

/-- The item `Pop` returns and the queue it leaves; a stored null is taken out
and looks to the caller like an empty queue. -/
def pop : Queue M → Option M × Queue M
  | [] => (none, [])
  | item :: rest => (item, rest)

@[simp] theorem length_push (q : Queue M) (item : Option M) : (q.push item).length = q.length + 1 := by
  simp [push]

@[simp] theorem pop_nil : pop ([] : Queue M) = (none, []) := rfl

@[simp] theorem pop_cons (item : Option M) (q : Queue M) : pop (item :: q) = (item, q) := rfl

/-- On a queue of real messages a null answer means that the queue is empty. -/
theorem pop_none {q q' : Queue M} (solid : none ∉ q) (h : q.pop = (none, q')) : q = [] ∧ q' = [] := by
  cases q with
  | nil => cases h; exact ⟨rfl, rfl⟩
  | cons item rest =>
    cases h
    exact absurd List.mem_cons_self solid

/-- A message that is returned was the oldest one. -/
theorem pop_some {q q' : Queue M} {m : M} (h : q.pop = (some m, q')) : q = some m :: q' := by
  cases q with
  | nil => cases h
  | cons item rest => cases h; rfl

end Queue

end Protoactor.Actor
