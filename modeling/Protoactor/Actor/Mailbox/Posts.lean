import Protoactor.Actor.Mailbox.Order
import Protoactor.Actor.Mailbox.Progress
import Mathlib.Data.List.Basic

/-!
# From the posts to the invocations

A post pushes its message once, and the lanes keep what was pushed in order. So the messages
handed to the posts are, up to their order, those that have been invoked and those on the way:
not pushed yet, queued, or popped by a worker.
-/

namespace Protoactor.Actor.Interleaving
set_option autoImplicit false
open Lib

variable {M : Type} {h : Handlers} {s s' : State M}

instance (s : State M) : Decidable (Quiescent s) := inferInstanceAs (Decidable (_ ∧ _ ∧ _))

/-- The message of a post to the queue of kind `k`. -/
def offered (k : Kind) (c : PostCall M) : Option M := if c.kind = k then c.message else none

/-- The same, as long as it is not pushed. -/
def unpushed (k : Kind) (c : PostCall M) : Option M := if c.pc = .push then offered k c else none

/-- Everything handed to a post has been pushed or will be. -/
def Posted (s : State M) : Prop :=
  ∀ k, (s.posts.filterMap (offered k)).Perm ((s.box.lane k).enqueued ++ s.posts.filterMap (unpushed k))

theorem posted_init : Posted (init : State M) := by
  intro k
  cases k <;> exact .refl []

theorem step_kind {b b' : DefaultMailbox M} {c c' : PostCall M} (act : c.step b = some (b', c')) : c'.kind = c.kind := by
  cases PostCall.act act <;> rfl

/-- A post keeps its message to the end. -/
theorem offered_step {b b' : DefaultMailbox M} {c c' : PostCall M} (act : c.step b = some (b', c')) (k : Kind) :
    offered k c' = offered k c := by
  unfold offered
  rw [step_kind act, (PostCall.step_invoked act k).1]

/-- A step of a post pushes what it has not pushed. -/
theorem enqueued_step {b b' : DefaultMailbox M} {c c' : PostCall M} (act : c.step b = some (b', c')) (k : Kind) :
    (b'.lane k).enqueued = (b.lane k).enqueued ++ (unpushed k c).toList ∧ unpushed k c' = none := by
  obtain ⟨later, pushed⟩ := PostCall.step_pushed act k
  refine ⟨?_, if_neg later⟩
  unfold Lane.enqueued unpushed offered
  rw [pushed, List.filterMap_append]
  by_cases pc : c.pc = .push
  · by_cases kind : c.kind = k
    · cases c.message <;> simp [pc, kind]
    · simp [kind]
  · simp [pc]

/-- Only a new post brings a message. -/
theorem offered_posts {l : Label M} (move : step h s l = some s') (noPost : ∀ k message, l ≠ .post k message) (k : Kind) :
    s'.posts.filterMap (offered k) = s.posts.filterMap (offered k) := by
  cases step_cases move with
  | post kind message => exact absurd rfl (noPost kind message)
  | poster here act =>
    simp only [here, List.filterMap_append, List.filterMap_cons, offered_step act k]
  | dispatch here pc =>
    simp only [here, List.filterMap_append, List.filterMap_cons, offered]
  | start pending | lose pending | worker get here act | raise here inside => rfl

/-- Writing one post. -/
theorem posted_poster {pre post : List (PostCall M)} {c c' : PostCall M} {b : DefaultMailbox M} {n : Nat} (posted : Posted s)
    (here : s.posts = pre ++ c :: post) (same : ∀ k, offered k c' = offered k c)
    (written : ∀ k, (b.lane k).enqueued = (s.box.lane k).enqueued ++ (unpushed k c).toList ∧ unpushed k c' = none) :
    Posted { s with box := b, posts := pre ++ c' :: post, scheduled := n } := by
  intro k
  obtain ⟨enqueued, later⟩ := written k
  have own := posted k
  have split : ∀ (f : PostCall M → Option M) (d : PostCall M),
      (pre ++ d :: post).filterMap f = pre.filterMap f ++ ((f d).toList ++ post.filterMap f) := by
    intro f d
    rw [List.filterMap_append, List.filterMap_cons]
    cases f d <;> rfl
  rw [here, split, split] at own
  show ((pre ++ c' :: post).filterMap (offered k)).Perm ((b.lane k).enqueued ++ (pre ++ c' :: post).filterMap (unpushed k))
  rw [split, split, same k, later, enqueued, List.append_assoc, Option.toList_none, List.nil_append]
  exact own.trans (.append_left _ (List.perm_append_comm_assoc _ _ _))

/-- **No post loses or doubles its message.** -/
theorem posted_keeps : Machine.Keeps (step h) Machine.free (Posted (M := M)) := by
  intro s l s' posted _ move
  cases step_cases move with
  | post kind message =>
    intro k
    show ((s.posts ++ [_]).filterMap (offered k)).Perm ((s.box.lane k).enqueued ++ (s.posts ++ [_]).filterMap (unpushed k))
    rw [List.filterMap_append, List.filterMap_append, ← List.append_assoc]
    exact (posted k).append (.refl _)
  | poster here act => exact posted_poster posted here (offered_step act) (enqueued_step act)
  | @dispatch n pre post c here pc =>
    have gone : ∀ k, unpushed k c = none := fun k => if_neg (by simp [pc])
    exact posted_poster posted here (fun _ => rfl) fun k => ⟨by rw [gone]; exact (List.append_nil _).symm, rfl⟩
  | start pending | lose pending | raise here inside => exact posted
  | worker get here act =>
    intro k
    have same : Lane.enqueued (DefaultMailbox.lane _ k) = (s.box.lane k).enqueued :=
      congrArg (List.filterMap id) (Worker.step_pushed act k)
    rw [same]
    exact posted k

section Run

variable {ls : List (Label M)}

/-- **What was posted** has been invoked, or is on its way. -/
theorem posted_invoked (run : Machine.Run (step h) Machine.free init ls s) (k : Kind) :
    ∃ rest, (s.posts.filterMap (offered k)).Perm ((s.box.lane k).invoked ++ rest) := by
  obtain ⟨-, inOrder⟩ := run.keeps inOrder_keeps ⟨exclusive_init, inOrder_init⟩
  have posted := run.keeps posted_keeps posted_init
  refine ⟨inFlight k s ++ (s.box.lane k).queue.filterMap id ++ s.posts.filterMap (unpushed k), (posted k).trans ?_⟩
  rw [inOrder k, List.append_assoc, List.append_assoc, List.append_assoc]

/-- Where nothing goes on nobody has the right. -/
theorem Quiescent.nobody (quiet : Quiescent s) : holders s = 0 := by
  obtain ⟨posts, tasks, calls⟩ := quiet
  have noPost : s.posts.countP dispatching = 0 := by
    rw [List.countP_eq_zero]
    intro c member
    have ended : c.pc = .returned := by simpa [inProgress] using posts c member
    simp [dispatching, ended]
  have noCall : s.calls.countP Worker.holds = 0 := by
    rw [List.countP_eq_zero]
    intro w member held
    have ended := calls w member
    rw [Worker.finished_of_holds held] at ended
    cases ended
  simp only [holders, noPost, tasks, noCall]

/-- Where nothing goes on nothing is queued, and the right is free. -/
theorem Progress.resting (prog : Progress s) (quiet : Quiescent s) :
    s.box.schedulerStatus = .idle ∧ ∀ k, (s.box.lane k).queue = [] := by
  have idle : s.box.schedulerStatus = .idle := by
    cases status : s.box.schedulerStatus with
    | idle => rfl
    | running =>
      have some_ := prog.running status
      rw [quiet.nobody] at some_
      exact absurd some_ (Nat.lt_irrefl 0)
  obtain ⟨posts, -, calls⟩ := quiet
  refine ⟨idle, fun k => Decidable.byContradiction fun full => ?_⟩
  rcases prog.noticed idle k full with ⟨c, member, busy⟩ | ⟨w, member, sees⟩
  · rw [posts c member] at busy
    cases busy
  · have ended := calls w member
    rw [Worker.finished_of_willSee sees] at ended
    cases ended

/-- In a mailbox where nothing goes on nothing is on its way. -/
theorem posted_quiescent (run : Machine.Run (step h) fairWithin init ls s) (quiet : Quiescent s) (k : Kind) :
    (s.posts.filterMap (offered k)).Perm (s.box.lane k).invoked := by
  have free : Machine.Run (step h) Machine.free init ls s := run.mono fun _ _ _ => True.intro
  obtain ⟨-, inOrder⟩ := free.keeps inOrder_keeps ⟨exclusive_init, inOrder_init⟩
  have posted := free.keeps posted_keeps posted_init
  obtain ⟨-, prog⟩ := run.keeps progress_keeps ⟨⟨exclusive_init, delivery_init⟩, progress_init⟩
  have queue := (prog.resting quiet).2 k
  obtain ⟨posts, -, calls⟩ := quiet
  have flight : inFlight k s = [] := by
    refine List.flatMap_eq_nil_iff.2 fun w member => ?_
    have ended := calls w member
    refine (Worker.idle_of_not_holds ?_ k).1
    cases held : w.holds with
    | false => rfl
    | true => rw [Worker.finished_of_holds held] at ended; cases ended
  have pushed : s.posts.filterMap (unpushed k) = [] := by
    refine List.filterMap_eq_nil_iff.2 fun c member => if_neg fun pc => ?_
    have ended := posts c member
    simp [inProgress, pc] at ended
  have own := posted k
  rwa [pushed, List.append_nil, inOrder k, flight, queue, List.append_nil, List.filterMap_nil, List.append_nil] at own

end Run

end Protoactor.Actor.Interleaving
