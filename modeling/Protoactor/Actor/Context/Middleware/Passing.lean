import Protoactor.Lib.Pool
import Protoactor.Actor.Context.Middleware

/-!
# What the middleware passes on

The last receiver gets an envelope and leaves it alone: the actor sees what the context holds. The
two agree where the middleware hands on the envelope of the context, perhaps written to, or an
equal one. An envelope that the middleware has made for the actor is not seen by it.

While an actor receives, other contexts may process messages above it on the stack; its own context
keeps what it holds until the actor is done (`Apart`). A message stays in the context where an
exception leaves `ProcessMessage`.
-/

namespace Protoactor.Actor.Middleware
set_option autoImplicit false
open Lib

variable {U K σ C : Type} {beh : Behaviour U K σ C} {s s' t : State U K σ C} {ls : List (Label U K)}
  {heap : List (MessageEnvelope U K)} {held : Held U K} {envelope : Option Nat}

/-- What an envelope contains; a null one contains nothing. -/
def contents (heap : List (MessageEnvelope U K)) : Option Nat → Received U K
  | none => ⟨.null, none, none⟩
  | some r =>
    match heap[r]? with
    | none => ⟨.null, none, none⟩
    | some object => ⟨object.message, object.header, object.sender⟩

/-- While an actor receives, the accessors of its context answer with the envelope that the last
receiver was given, and a context that processes no message holds none. -/
structure Good (s : State U K σ C) : Prop where
  sees : ∀ k envelope c, .actor k envelope c ∈ s.stack → s.current k = contents s.heap envelope
  holds : ∀ k, .clear k ∉ s.stack → s.messages k = .null

/-! ## The condition -/

/-- The envelope is as good as what the context holds: the same object, an equal one, or one
that has been made for a raw message. -/
def Stands (heap : List (MessageEnvelope U K)) : Held U K → Option Nat → Prop
  | .null, none => True
  | .null, some r => heap[r]? = some ⟨none, .null, none⟩
  | .raw _ _, none => False
  | .raw message _, some r => heap[r]? = some ⟨none, message, none⟩
  | .envelope h, none => heap[h]? = some ⟨none, .null, none⟩
  | .envelope h, some r => ∃ object, heap[h]? = some object ∧ heap[r]? = some object

/-- Somebody catches the exception before it leaves `ProcessMessage`. -/
def caughtInside (caught : C → Option C) : List (Frame C) → Bool
  | [] | .clear _ :: _ => false
  | .code (.own c) :: below | .actor _ _ c :: below => (caught c).isSome || caughtInside caught below
  | .code (.last _ _) :: below | .receive _ :: below => caughtInside caught below

/-- The actor of the context receives. -/
def Receiving (k : Nat) (stack : List (Frame C)) : Prop := ∃ envelope c, .actor k envelope c ∈ stack

/-- A write to the envelope is one for a receiving actor and for its context, or for neither. -/
def Together (s : State U K σ C) (r : Nat) (stack : List (Frame C)) : Prop :=
  ∀ k envelope c, .actor k envelope c ∈ stack → (envelope = some r ↔ s.messages k = .envelope r)

/-- What a program may do next; its frame is on top of the others. -/
def mayDo (beh : Behaviour U K σ C) (s : State U K σ C) (frame : Frame C) (below : List (Frame C)) : Next U K C → Prop
  | .returns | .calls _ _ | .allocates _ _ => True
  | .throws => caughtInside beh.caught below = true
  | .writes r _ _ => Together s r (frame :: below)
  | .applies k _ _ => ¬ Receiving k (frame :: below) ∧ .clear k ∈ below
  | .invokes k _ _ => ¬ Receiving k (frame :: below)

/-- What the frame on top may do. -/
def allowed (beh : Behaviour U K σ C) (s : State U K σ C) (frame : Frame C) (below : List (Frame C)) : Prop :=
  match frame with
  | .receive _ | .clear _ | .code (.last none _) => True
  | .code (.last (some k) envelope) => s.actors k = true → Stands s.heap (s.messages k) envelope
  | .code (.own c) | .actor _ _ c => mayDo beh s frame below (beh.resume c s.view s.memory).2

/-- The last receiver gets an envelope that stands for what the context holds. While an actor
receives, its context gets no other message, by `Apply` or by being invoked, and nobody writes to
the one and not the other; `Apply` comes while a message is processed, and exceptions do not leave
`ProcessMessage`. -/
def passesOn (beh : Behaviour U K σ C) (s : State U K σ C) : Label U K → Prop
  | .invoke _ _ => True
  | .run => ∀ frame below, s.stack = frame :: below → allowed beh { s with stack := below } frame below

/-! ## Envelopes -/

/-- A raw message is its own payload. -/
theorem unwrapEnvelope_plain {message : Ptr U K} (plain : message.isNull = false ∧ message.isEnvelope = false) :
    unwrapEnvelope message = (none, message, none) := by
  cases message with
  | null => cases plain.1
  | envelope => cases plain.2
  | _ => rfl

theorem Stands.current {k : Nat} (stands : Stands s.heap (s.messages k) envelope) : s.current k = contents s.heap envelope := by
  unfold State.current
  cases holds : s.messages k with
  | null =>
    rw [holds] at stands
    cases envelope with
    | none => rfl
    | some r =>
      have here : s.heap[r]? = some ⟨none, .null, none⟩ := stands
      simp only [contents, here]
      rfl
  | raw message plain =>
    rw [holds] at stands
    cases envelope with
    | none => cases stands
    | some r =>
      have here : s.heap[r]? = some ⟨none, message, none⟩ := stands
      simp only [contents, here, Held.toPtr, unwrapEnvelope_plain plain]
  | envelope h =>
    rw [holds] at stands
    cases envelope with
    | none =>
      have here : s.heap[h]? = some ⟨none, .null, none⟩ := stands
      simp only [Held.toPtr, here]
      rfl
    | some r =>
      obtain ⟨object, here, here'⟩ := stands
      simp only [contents, Held.toPtr, here, here']
      rfl

/-- A new envelope changes none of the old ones. -/
theorem Stands.allocate (object : MessageEnvelope U K) (stands : Stands heap held envelope) :
    Stands (heap ++ [object]) held envelope := by
  have old : ∀ {r found}, heap[r]? = some found → (heap ++ [object])[r]? = some found := fun here => pool_grow here _
  cases held with
  | null | raw =>
    cases envelope with
    | none => exact stands
    | some r => exact old stands
  | envelope h =>
    cases envelope with
    | none => exact old stands
    | some r =>
      obtain ⟨found, here, here'⟩ := stands
      exact ⟨found, old here, old here'⟩

/-- A write to both or to neither. -/
theorem Stands.write {r : Nat} (object : MessageEnvelope U K) (both : envelope = some r ↔ held = .envelope r)
    (stands : Stands heap held envelope) : Stands (heap.set r object) held envelope := by
  have other : ∀ {j found}, j ≠ r → heap[j]? = some found → (heap.set r object)[j]? = some found :=
    fun apart here => (List.getElem?_set_ne (Ne.symm apart)).trans here
  cases held with
  | null | raw =>
    cases envelope with
    | none => exact stands
    | some j =>
      refine other (fun same => ?_) stands
      cases both.1 (by rw [same])
  | envelope h =>
    cases envelope with
    | none =>
      refine other (fun same => ?_) stands
      cases both.2 (by rw [same])
    | some j =>
      obtain ⟨found, here, here'⟩ := stands
      by_cases same : j = r
      · subst j
        cases both.1 rfl
        have now := pool_put here object
        exact ⟨object, now, now⟩
      · have apart : h ≠ r := by
          rintro rfl
          exact same (Option.some.inj (both.2 rfl))
        exact ⟨found, other apart here, other same here'⟩

/-- **Exactly these envelopes** show what the context shows. -/
theorem stands_iff {k : Nat} (valid : ∀ r, envelope = some r → r < s.heap.length)
    (valid' : ∀ r, s.messages k = .envelope r → r < s.heap.length) :
    s.current k = contents s.heap envelope ↔ Stands s.heap (s.messages k) envelope := by
  refine ⟨fun same => ?_, Stands.current⟩
  have found : ∀ r, envelope = some r → ∃ object, s.heap[r]? = some object := fun r here =>
    ⟨_, List.getElem?_eq_getElem (valid r here)⟩
  unfold State.current at same
  cases holds : s.messages k with
  | null =>
    rw [holds] at same
    cases envelope with
    | none => trivial
    | some r =>
      obtain ⟨⟨header, message, sender⟩, here⟩ := found r rfl
      simp only [contents, here, Held.toPtr, unwrapEnvelope, Received.mk.injEq] at same
      obtain ⟨rfl, rfl, rfl⟩ := same
      exact here
  | raw message plain =>
    have opened := unwrapEnvelope_plain plain
    rw [holds] at same
    cases envelope with
    | none =>
      simp only [contents, Held.toPtr, opened, Received.mk.injEq] at same
      obtain ⟨rfl, -, -⟩ := same
      cases plain.1
    | some r =>
      obtain ⟨⟨header, message', sender⟩, here⟩ := found r rfl
      simp only [contents, here, Held.toPtr, opened, Received.mk.injEq] at same
      obtain ⟨rfl, rfl, rfl⟩ := same
      exact here
  | envelope h =>
    obtain ⟨⟨header, message, sender⟩, there⟩ : ∃ object, s.heap[h]? = some object :=
      ⟨_, List.getElem?_eq_getElem (valid' h holds)⟩
    rw [holds] at same
    cases envelope with
    | none =>
      simp only [contents, Held.toPtr, there, unwrapEnvelope, Received.mk.injEq] at same
      obtain ⟨rfl, rfl, rfl⟩ := same
      exact there
    | some r =>
      obtain ⟨⟨header', message', sender'⟩, here⟩ := found r rfl
      simp only [contents, here, Held.toPtr, there, unwrapEnvelope, Received.mk.injEq] at same
      obtain ⟨rfl, rfl, rfl⟩ := same
      exact ⟨_, there, here⟩

/-! ## The invariant -/

/-- No call of `ProcessMessage` ends while an actor of its context goes on receiving. -/
def Apart (stack : List (Frame C)) : Prop :=
  stack.Pairwise fun upper lower => ∀ k envelope c, upper = .clear k → lower ≠ .actor k envelope c

structure Inv (s : State U K σ C) : Prop where
  stands : ∀ k envelope c, .actor k envelope c ∈ s.stack → Stands s.heap (s.messages k) envelope
  apart : Apart s.stack
  holds : ∀ k, .clear k ∉ s.stack → s.messages k = .null

theorem Inv.good (inv : Inv s) : Good s :=
  ⟨fun k envelope c member => (inv.stands k envelope c member).current, inv.holds⟩

theorem Apart.cons {frame : Frame C} {below : List (Frame C)} (apart : Apart below)
    (free : ∀ k, frame = .clear k → ¬ Receiving k below) : Apart (frame :: below) := by
  refine List.pairwise_cons.2 ⟨?_, apart⟩
  rintro lower member k envelope c top rfl
  exact free k top ⟨envelope, c, member⟩

/-! ## The stack -/

/-- The calls that are still under way, and no call of `ProcessMessage` is given up. -/
structure GoesOn (stack rest : List (Frame C)) : Prop where
  actors : ∀ k envelope c, .actor k envelope c ∈ rest → ∃ c', .actor k envelope c' ∈ stack
  clears : ∀ k, .clear k ∈ stack → .clear k ∈ rest
  apart : Apart stack → Apart rest

namespace GoesOn

variable {frame : Frame C} {stack below rest : List (Frame C)} {c c' : C}

/-- A call ends that is not `ProcessMessage`. -/
theorem skip (plain : ∀ k, frame ≠ .clear k) (on : GoesOn below rest) : GoesOn (frame :: below) rest where
  actors := by
    intro k envelope c member
    obtain ⟨c', member⟩ := on.actors k envelope c member
    exact ⟨c', List.mem_cons_of_mem _ member⟩
  clears := by
    intro k member
    rcases List.mem_cons.1 member with here | member
    · exact absurd here.symm (plain k)
    · exact on.clears k member
  apart := fun apart => on.apart apart.of_cons

theorem ends (plain : ∀ k, frame ≠ .clear k) : GoesOn (frame :: below) below :=
  skip plain ⟨fun _ _ c member => ⟨c, member⟩, fun _ member => member, fun apart => apart⟩

/-- A handler has made a step. -/
theorem own : GoesOn (.code (.own c) :: below) (.code (.own c') :: below) where
  actors := by
    intro k envelope c'' member
    exact ⟨c'', by simpa using member⟩
  clears := by
    intro k member
    simpa using member
  apart := fun apart => Apart.cons apart.of_cons nofun

/-- An actor has made a step. -/
theorem actor {k : Nat} : GoesOn (.actor k envelope c :: below) (.actor k envelope c' :: below) where
  actors := by
    intro j envelope' c'' member
    rcases List.mem_cons.1 member with same | member
    · cases same
      exact ⟨c, List.mem_cons_self⟩
    · exact ⟨c'', List.mem_cons_of_mem _ member⟩
  clears := by
    intro j member
    simpa using member
  apart := fun apart => Apart.cons apart.of_cons nofun

theorem free {k : Nat} (on : GoesOn stack rest) (free : ¬ Receiving k stack) : ¬ Receiving k rest := by
  rintro ⟨envelope, c, member⟩
  obtain ⟨c', member⟩ := on.actors k envelope c member
  exact free ⟨envelope, c', member⟩

theorem together {r : Nat} (on : GoesOn stack rest) (together : Together s r stack) : Together s r rest := by
  intro k envelope c member
  obtain ⟨c', member⟩ := on.actors k envelope c member
  exact together k envelope c' member

/-- An exception that is caught inside. -/
theorem unwind {caught : C → Option C} {stack : List (Frame C)} (inside : caughtInside caught stack = true) :
    GoesOn stack (State.unwind caught stack) := by
  induction stack with
  | nil => cases inside
  | cons frame below ih =>
    cases frame with
    | clear k => cases inside
    | receive k => exact skip nofun (ih inside)
    | actor k envelope c =>
      cases here : caught c with
      | none =>
        simp only [State.unwind, here]
        exact skip nofun (ih (by simpa [caughtInside, here] using inside))
      | some c' =>
        simp only [State.unwind, here]
        exact actor
    | code code =>
      cases code with
      | last ctx envelope => exact skip nofun (ih inside)
      | own c =>
        cases here : caught c with
        | none =>
          simp only [State.unwind, here]
          exact skip nofun (ih (by simpa [caughtInside, here] using inside))
        | some c' =>
          simp only [State.unwind, here]
          exact own

end GoesOn

theorem Inv.goesOn {rest : List (Frame C)} (inv : Inv s) (on : GoesOn s.stack rest) (memory : σ) :
    Inv { s with memory := memory, stack := rest } where
  stands := by
    intro k envelope c member
    obtain ⟨c', member⟩ := on.actors k envelope c member
    exact inv.stands k envelope c' member
  apart := on.apart inv.apart
  holds := fun k absent => inv.holds k fun member => absent (on.clears k member)

/-- A call begins. -/
theorem Inv.push {frame : Frame C} (inv : Inv s) (plain : ∀ k, frame ≠ .clear k)
    (stands : ∀ k envelope c, frame = .actor k envelope c → Stands s.heap (s.messages k) envelope) : Inv (s.call [frame]) where
  stands := by
    intro k envelope c member
    rcases List.mem_cons.1 member with here | member
    · exact stands k envelope c here.symm
    · exact inv.stands k envelope c member
  apart := inv.apart.cons fun k here => absurd here (plain k)
  holds := fun k absent => inv.holds k fun member => absent (List.mem_cons_of_mem _ member)

/-- A call ends. -/
theorem Inv.pop {frame : Frame C} {below : List (Frame C)} (inv : Inv s) (top : s.stack = frame :: below)
    (plain : ∀ k, frame ≠ .clear k) : Inv { s with stack := below } :=
  inv.goesOn (top ▸ GoesOn.ends plain) s.memory

/-! ## Messages and envelopes -/

theorem Inv.allocate (inv : Inv s) (object : MessageEnvelope U K) : Inv { s with heap := s.heap ++ [object] } :=
  ⟨fun k envelope c member => (inv.stands k envelope c member).allocate object, inv.apart, inv.holds⟩

theorem Inv.write {r : Nat} (inv : Inv s) (object : MessageEnvelope U K) (together : Together s r s.stack) :
    Inv { s with heap := s.heap.set r object } :=
  ⟨fun k envelope c member => (inv.stands k envelope c member).write object (together k envelope c member), inv.apart, inv.holds⟩

/-- Actors of other contexts go on seeing what they saw. -/
theorem stands_setMessage {k : Nat} {message : Held U K} {stack : List (Frame C)} (free : ¬ Receiving k stack)
    (stands : ∀ k envelope c, .actor k envelope c ∈ stack → Stands s.heap (s.messages k) envelope) :
    ∀ j envelope c, .actor j envelope c ∈ stack → Stands s.heap ((s.setMessage k message).messages j) envelope := by
  intro j envelope c member
  have other : j ≠ k := by
    rintro rfl
    exact free ⟨envelope, c, member⟩
  have kept : (s.setMessage k message).messages j = s.messages j := if_neg other
  rw [kept]
  exact stands j envelope c member

theorem Inv.apply {k : Nat} (inv : Inv s) (message : Held U K) (free : ¬ Receiving k s.stack) (processes : .clear k ∈ s.stack) :
    Inv (s.setMessage k message) := by
  refine ⟨stands_setMessage free inv.stands, inv.apart, fun j absent => ?_⟩
  have other : j ≠ k := by
    rintro rfl
    exact absent processes
  exact (if_neg other).trans (inv.holds j absent)

/-- `ProcessMessage` begins. -/
theorem Inv.invoke {k : Nat} (inv : Inv s) (message : Held U K) (free : ¬ Receiving k s.stack) :
    Inv (s.invokeUserMessage k message) := by
  unfold State.invokeUserMessage
  split
  · exact inv
  · have entered : Inv ((s.setMessage k message).call [.clear k]) := by
      refine ⟨fun j envelope c member => ?_, inv.apart.cons fun j here => ?_, fun j absent => ?_⟩
      · exact stands_setMessage free inv.stands j envelope c (by simpa [State.call, State.setMessage] using member)
      · cases here
        exact free
      · obtain ⟨other, absent⟩ : j ≠ k ∧ .clear j ∉ s.stack := by simpa [State.call, State.setMessage] using absent
        exact (if_neg other).trans (inv.holds j absent)
    exact entered.push nofun nofun

/-- `ProcessMessage` ends. -/
theorem Inv.clear {k : Nat} {below : List (Frame C)} (inv : Inv s) (top : s.stack = .clear k :: below) :
    Inv (({ s with stack := below } : State U K σ C).setMessage k .null) := by
  obtain ⟨stands, apart, holds⟩ := inv
  rw [top] at stands apart holds
  obtain ⟨first, apart⟩ := List.pairwise_cons.1 apart
  have free : ¬ Receiving k below := by
    rintro ⟨envelope, c, member⟩
    exact first _ member k envelope c rfl rfl
  have others : ∀ j envelope c, .actor j envelope c ∈ below → Stands s.heap (s.messages j) envelope := fun j envelope c member =>
    stands j envelope c (List.mem_cons_of_mem _ member)
  refine ⟨stands_setMessage (s := { s with stack := below }) free others, apart, fun j absent => ?_⟩
  have absent : .clear j ∉ below := absent
  show (if j = k then .null else s.messages j) = .null
  split
  · rfl
  · rename_i other
    exact holds j (by simpa [other] using absent)

/-! ## One frame -/

theorem Inv.defaultReceive (inv : Inv s) (k : Nat) : Inv (s.defaultReceive beh k) := by
  unfold State.defaultReceive
  split
  · have wrapped : Inv (s.wrap k).2 := by
      unfold State.wrap
      split
      · exact inv
      · exact inv
      · exact inv.allocate _
    exact wrapped.push nofun nofun
  · split
    · exact inv.push nofun nofun
    · exact inv

theorem Inv.lastReceiver (inv : Inv s) (ctx : Option Nat)
    (passes : ∀ k, ctx = some k → s.actors k = true → Stands s.heap (s.messages k) envelope) :
    Inv (s.lastReceiver beh ctx envelope) := by
  unfold State.lastReceiver
  split
  · exact inv
  · rename_i k
    split
    · rename_i here
      refine inv.push nofun fun j envelope' c same => ?_
      cases same
      exact passes k rfl here
    · exact inv

/-- A handler or an actor makes a step. -/
theorem Inv.resume {again : C → Frame C} {c : C} {below : List (Frame C)} (inv : Inv s) (top : s.stack = again c :: below)
    (plain : ∀ k, again c ≠ .clear k) (on : ∀ rest, GoesOn (again c :: below) (again rest :: below))
    (allows : mayDo beh s (again c) below (beh.resume c s.view s.memory).2) :
    Inv (({ s with stack := below } : State U K σ C).resume beh c again) := by
  unfold State.resume
  have seen : ({ s with stack := below } : State U K σ C).view = s.view := rfl
  rw [seen]
  generalize beh.resume c s.view s.memory = result at allows ⊢
  rcases result with ⟨memory, next⟩
  have waiting : Inv ({ s with memory := memory, stack := below } : State U K σ C) :=
    inv.goesOn (top ▸ GoesOn.ends plain) memory
  have rests : ∀ rest, Inv ({ s with memory := memory, stack := again rest :: below } : State U K σ C) := fun rest =>
    inv.goesOn (top ▸ on rest) memory
  cases next with
  | returns => exact waiting
  | throws => exact waiting.goesOn (GoesOn.unwind allows) memory
  | calls code rest => exact (rests rest).push nofun nofun
  | allocates object rest => exact (rests rest).allocate object
  | writes r object rest => exact (rests rest).write object ((on rest).together allows)
  | applies k message rest =>
    obtain ⟨free, processes⟩ := allows
    exact (rests rest).apply message ((on rest).free free) (List.mem_cons_of_mem _ processes)
  | invokes k message rest => exact (rests rest).invoke message ((on rest).free allows)

/-! ## Runs -/

theorem keeps_inv : Machine.Keeps (step beh) (passesOn beh) (Inv (U := U) (K := K) (σ := σ) (C := C)) := by
  intro s l s' inv allows moved
  cases l with
  | invoke k message =>
    cases stack : s.stack with
    | nil =>
      simp only [step, stack, Option.some.injEq] at moved
      subst moved
      refine inv.invoke message ?_
      rintro ⟨envelope, c, member⟩
      rw [stack] at member
      cases member
    | cons frame below =>
      simp only [step, stack] at moved
      cases moved
  | run =>
    cases stack : s.stack with
    | nil =>
      simp only [step, stack] at moved
      cases moved
    | cons frame below =>
      simp only [step, stack, Option.some.injEq] at moved
      subst moved
      have allows := allows frame below stack
      cases frame with
      | clear k => exact inv.clear stack
      | receive k => exact (inv.pop stack nofun).defaultReceive k
      | actor k envelope c => exact inv.resume stack nofun (fun _ => GoesOn.actor) allows
      | code code =>
        cases code with
        | own c => exact inv.resume stack nofun (fun _ => GoesOn.own) allows
        | last ctx envelope =>
          refine (inv.pop stack nofun).lastReceiver ctx fun k here actor => ?_
          subst here
          exact allows actor

theorem inv_start (heap : List (MessageEnvelope U K)) (stopped actors : Nat → Bool) (memory : σ) :
    Inv (start heap stopped actors memory : State U K σ C) := ⟨nofun, List.Pairwise.nil, fun _ _ => rfl⟩

/-- **What the middleware passes on is what the actor sees**, in every state of every run whose steps
meet the condition. -/
theorem sees_passed {heap : List (MessageEnvelope U K)} {stopped actors : Nat → Bool} {memory : σ}
    (run : Machine.Run (step beh) (passesOn beh) (start heap stopped actors memory) ls t) : Good t :=
  (run.keeps keeps_inv (inv_start heap stopped actors memory)).good

/-- Programs for the runs below. -/
inductive Toy where
  | calls (code : Code Toy)
  | rewraps (code : Code Toy)
  | stops

/-- Hands on what it gets. -/
def forward : ReceiverMiddleware Toy := fun next ctx envelope => .own (.calls (next ctx envelope))

/-- Hands on a new envelope with another sender; the message has come raw, so the new one is the second one. -/
def replaceSender : ReceiverMiddleware Toy := fun next ctx _ => .own (.rewraps (next ctx (some 1)))

def toy (middleware : List (ReceiverMiddleware Toy)) : Behaviour Unit Unit Unit Toy where
  middleware := fun _ => some middleware
  receive := fun _ => .stops
  resume := fun c _ memory =>
    match c with
    | .calls code => (memory, .calls code .stops)
    | .rewraps code => (memory, .allocates ⟨none, .user (), some ⟨1, "nonhost", "other"⟩⟩ (.calls code))
    | .stops => (memory, .returns)
  caught := fun _ => none

def rawMessage : Held Unit Unit := .raw (.user ()) ⟨rfl, rfl⟩

theorem sees_passed_forward : ∃ t : State Unit Unit Unit Toy,
    t.stack = [.actor 0 (some 0) .stops, .code (.own .stops), .clear 0] ∧ Good t := by
  have run : ∃ t, Machine.Run (step (toy [forward])) (passesOn (toy [forward]))
      (start [] (fun _ => false) (fun _ => true) ()) [.invoke 0 rawMessage, .run, .run, .run] t ∧
      t.stack = [.actor 0 (some 0) .stops, .code (.own .stops), .clear 0] := by
    refine ⟨_, .cons rfl trivial (.cons rfl ?_ (.cons rfl ?_ (.cons rfl ?_ (.nil _)))), rfl⟩
    · intro frame below here
      cases here
      exact trivial
    · intro frame below here
      cases here
      exact trivial
    · intro frame below here
      cases here
      exact fun _ => rfl
  obtain ⟨t, run, top⟩ := run
  exact ⟨t, top, sees_passed run⟩

/-- A middleware that replaces the sender: the actor sees none. -/
theorem replaced_sender_lost : ∃ t : State Unit Unit Unit Toy,
    Machine.Run (step (toy [replaceSender])) Machine.free (start [] (fun _ => false) (fun _ => true) ())
      [.invoke 0 rawMessage, .run, .run, .run, .run] t ∧
    t.stack = [.actor 0 (some 1) .stops, .code (.own .stops), .clear 0] ∧
    (contents t.heap (some 1)).sender = some ⟨1, "nonhost", "other"⟩ ∧ (t.current 0).sender = none ∧ ¬ Good t := by
  refine ⟨_, Machine.free_of_exec rfl, rfl, rfl, rfl, fun good => ?_⟩
  have same := congrArg Received.sender (good.sees 0 (some 1) .stops List.mem_cons_self)
  cases same

end Protoactor.Actor.Middleware
