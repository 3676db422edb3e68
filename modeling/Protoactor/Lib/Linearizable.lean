/-!
# Linearizable histories

A history is what the callers of a shared object see: calls and answers in the order in
which they happen. It is linearizable when its calls, each taken once and whole, can be
put in an order in which a sequential object gives the same answers, and which respects
the order of each caller and of calls that do not overlap.

A call that takes effect in one step between its invocation and its answer is dealt with by
three rules: `Recorded.invoke`, `Recorded.commit` at the step of the effect, and
`Recorded.respond`. `Waiting` and `Decided` say where a call stands between them.
-/

namespace Protoactor.Lib
set_option autoImplicit false

section Order

variable {α : Type} {l : List α} {a b z : α}

/-- `a` stands before `b` in `l`. -/
def Before (l : List α) (a b : α) : Prop := ∃ i j : Nat, i < j ∧ l[i]? = some a ∧ l[j]? = some b

theorem Before.right (h : Before l a b) : b ∈ l := by
  obtain ⟨i, j, -, -, there⟩ := h
  exact List.mem_of_getElem? there

theorem Before.append (h : Before l a b) (l' : List α) : Before (l ++ l') a b := by
  obtain ⟨i, j, less, here, there⟩ := h
  have bound := (List.getElem?_eq_some_iff.1 there).1
  refine ⟨i, j, less, ?_, ?_⟩
  · rw [List.getElem?_append_left (by omega), here]
  · rw [List.getElem?_append_left bound, there]

/-- Everything stands before what is added at the end. -/
theorem before_last (member : a ∈ l) : Before (l ++ [z]) a z := by
  obtain ⟨i, bound, here⟩ := List.mem_iff_getElem.1 member
  refine ⟨i, l.length, bound, ?_, List.getElem?_concat_length⟩
  rw [List.getElem?_append_left bound, List.getElem?_eq_getElem bound, here]

/-- Adding `z` at the end puts nothing before the others. -/
theorem Before.of_append (h : Before (l ++ [z]) a b) : Before l a b ∨ (a ∈ l ∧ b = z) := by
  obtain ⟨i, j, less, here, there⟩ := h
  by_cases old : j < l.length
  · rw [List.getElem?_append_left old] at there
    rw [List.getElem?_append_left (by omega)] at here
    exact .inl ⟨i, j, less, here, there⟩
  · have bound := (List.getElem?_eq_some_iff.1 there).1
    have last : j = l.length := by
      rw [List.length_append, List.length_singleton] at bound
      omega
    rw [last, List.getElem?_concat_length] at there
    rw [List.getElem?_append_left (by omega)] at here
    exact .inr ⟨List.mem_of_getElem? here, (Option.some.inj there).symm⟩

end Order

/-- A sequential object: the answer to a call and the state after it. -/
abbrev Spec (S C R : Type) := S → C → R × S

/-- What the callers see; `ticket` names the call and `thread` the caller. -/
inductive Event (C R : Type) where
  | invoke (ticket thread : Nat) (call : C)
  | respond (ticket thread : Nat) (result : R)
  deriving DecidableEq, Repr

/-- A call together with its answer. -/
structure Operation (C R : Type) where
  ticket : Nat
  thread : Nat
  call : C
  result : R
  deriving DecidableEq, Repr

variable {S C R : Type}

namespace Operation

def invoked (op : Operation C R) : Event C R := .invoke op.ticket op.thread op.call

def responded (op : Operation C R) : Event C R := .respond op.ticket op.thread op.result

end Operation

/-- The state after `ops`. -/
def final (spec : Spec S C R) (s : S) (ops : List (Operation C R)) : S := ops.foldl (fun s op => (spec s op.call).2) s

/-- Performed one after the other, the calls get these answers. -/
def Legal (spec : Spec S C R) : S → List (Operation C R) → Prop
  | _, [] => True
  | s, op :: ops => (spec s op.call).1 = op.result ∧ Legal spec (spec s op.call).2 ops

variable {spec : Spec S C R} {s start : S} {h : List (Event C R)} {order : List (Operation C R)} {op : Operation C R}

theorem final_append (ops ops' : List (Operation C R)) : final spec s (ops ++ ops') = final spec (final spec s ops) ops' :=
  List.foldl_append

theorem final_snoc (ops : List (Operation C R)) (op : Operation C R) :
    final spec s (ops ++ [op]) = (spec (final spec s ops) op.call).2 := final_append ops [op]

theorem legal_append (ops ops' : List (Operation C R)) :
    Legal spec s (ops ++ ops') ↔ Legal spec s ops ∧ Legal spec (final spec s ops) ops' := by
  induction ops generalizing s with
  | nil => exact ⟨fun legal => ⟨True.intro, legal⟩, And.right⟩
  | cons op ops ih =>
    rw [List.cons_append, Legal, Legal, ih, and_assoc]
    rfl

/-- `order` is an order of the calls of `h`; pending calls may have taken effect or not. -/
structure Linearizes (spec : Spec S C R) (start : S) (h : List (Event C R)) (order : List (Operation C R)) : Prop where
  legal : Legal spec start order
  once : (order.map Operation.ticket).Nodup
  called : ∀ op ∈ order, op.invoked ∈ h
  answered : ∀ ticket thread result, .respond ticket thread result ∈ h →
    ∃ op ∈ order, op.responded = .respond ticket thread result
  realTime : ∀ a ∈ order, ∀ b ∈ order, Before h a.responded b.invoked → Before order a b
  ownOrder : ∀ a ∈ order, ∀ b ∈ order, a.thread = b.thread → Before h a.invoked b.invoked → Before order a b

/-- What is kept while a history is recorded: every call gets the next ticket, and a thread
calls again only after it has been answered. -/
structure Recorded (spec : Spec S C R) (start : S) (h : List (Event C R)) (order : List (Operation C R)) (next : Nat) : Prop
    extends Linearizes spec start h order where
  tickets : ∀ n t c, .invoke n t c ∈ h → n < next
  unique : ∀ n t t' c c', .invoke n t c ∈ h → .invoke n t' c' ∈ h → t = t'
  sequential : ∀ n n' t c c', Before h (.invoke n t c) (.invoke n' t c') → ∃ r, .respond n t r ∈ h

/-- The call has been made and has not taken effect. -/
structure Waiting (h : List (Event C R)) (order : List (Operation C R)) (ticket thread : Nat) (call : C) : Prop where
  invoked : .invoke ticket thread call ∈ h
  undecided : ticket ∉ order.map Operation.ticket
  unanswered : ∀ t r, .respond ticket t r ∉ h

/-- The call has taken effect and its answer is on the way. -/
structure Decided (h : List (Event C R)) (order : List (Operation C R)) (op : Operation C R) : Prop where
  decided : op ∈ order
  unanswered : ∀ t r, .respond op.ticket t r ∉ h

/-- A call answers nothing. -/
theorem unanswered_invoke {ticket : Nat} (unanswered : ∀ t r, .respond ticket t r ∉ h) (n t : Nat) (c : C) :
    ∀ t' r, .respond ticket t' r ∉ h ++ [.invoke n t c] := by
  intro t' r member
  rcases List.mem_append.1 member with before | last
  · exact unanswered t' r before
  · cases List.mem_singleton.1 last

/-- The answer to another call is no answer to this one. -/
theorem unanswered_respond {ticket : Nat} (unanswered : ∀ t r, .respond ticket t r ∉ h) (other : op.ticket ≠ ticket) :
    ∀ t r, .respond ticket t r ∉ h ++ [op.responded] := by
  intro t r member
  rcases List.mem_append.1 member with before | last
  · exact unanswered t r before
  · injection List.mem_singleton.1 last with same
    exact other same.symm

namespace Recorded

variable {next : Nat}

theorem nil (spec : Spec S C R) (start : S) : Recorded spec start [] [] 0 := by
  have nothing : ∀ {a b : Event C R}, ¬ Before [] a b := fun before => absurd before.right List.not_mem_nil
  constructor
  case toLinearizes =>
    constructor
    case legal => exact True.intro
    case once => exact List.nodup_nil
    case called => exact fun op member => absurd member List.not_mem_nil
    case answered => exact fun _ _ _ member => absurd member List.not_mem_nil
    case realTime => exact fun _ member => absurd member List.not_mem_nil
    case ownOrder => exact fun _ member => absurd member List.not_mem_nil
  case tickets => exact fun _ _ _ member => absurd member List.not_mem_nil
  case unique => exact fun _ _ _ _ _ member => absurd member List.not_mem_nil
  case sequential => exact fun _ _ _ _ _ before => absurd before nothing

/-- A thread whose calls have all been answered makes the next call. -/
theorem invoke (known : Recorded spec start h order next) {thread : Nat} (call : C)
    (idle : ∀ n c, .invoke n thread c ∈ h → ∃ r, .respond n thread r ∈ h) :
    Recorded spec start (h ++ [Event.invoke next thread call]) order (next + 1) := by
  have old : ∀ n t c, .invoke n t c ∈ h ++ [Event.invoke next thread call] →
      .invoke n t c ∈ h ∨ (n = next ∧ t = thread ∧ c = call) := by
    intro n t c member
    rcases List.mem_append.1 member with before | last
    · exact .inl before
    · cases List.mem_singleton.1 last
      exact .inr ⟨rfl, rfl, rfl⟩
  -- the operations of the order were called before, so the new event is none of theirs
  have earlier : ∀ {a : Event C R} {b : Operation C R}, b ∈ order →
      Before (h ++ [Event.invoke next thread call]) a b.invoked → Before h a b.invoked := by
    intro a b member before
    rcases before.of_append with known' | ⟨-, same⟩
    · exact known'
    · have called := known.tickets _ _ _ (known.called b member)
      cases same
      exact absurd called (Nat.lt_irrefl _)
  constructor
  case toLinearizes =>
    constructor
    case legal => exact known.legal
    case once => exact known.once
    case called => exact fun op member => List.mem_append_left _ (known.called op member)
    case answered =>
      intro ticket t result member
      rcases List.mem_append.1 member with before | last
      · exact known.answered ticket t result before
      · cases List.mem_singleton.1 last
    case realTime => exact fun a first b second before => known.realTime a first b second (earlier second before)
    case ownOrder => exact fun a first b second own before => known.ownOrder a first b second own (earlier second before)
  case tickets =>
    intro n t c member
    rcases old n t c member with before | ⟨rfl, -, -⟩
    · exact Nat.lt_succ_of_lt (known.tickets n t c before)
    · exact Nat.lt_succ_self n
  case unique =>
    intro n t t' c c' member member'
    rcases old n t c member with before | ⟨rfl, rfl, -⟩
    · rcases old n t' c' member' with before' | ⟨rfl, -, -⟩
      · exact known.unique n t t' c c' before before'
      · exact absurd (known.tickets _ _ _ before) (Nat.lt_irrefl _)
    · rcases old _ t' c' member' with before' | ⟨-, rfl, -⟩
      · exact absurd (known.tickets _ _ _ before') (Nat.lt_irrefl _)
      · rfl
  case sequential =>
    intro n n' t c c' before
    rcases before.of_append with known' | ⟨member, same⟩
    · obtain ⟨r, answer⟩ := known.sequential n n' t c c' known'
      exact ⟨r, List.mem_append_left _ answer⟩
    · cases same
      obtain ⟨r, answer⟩ := idle n c member
      exact ⟨r, List.mem_append_left _ answer⟩

/-- No answer bears a ticket that has not been given out. -/
theorem unanswered (known : Recorded spec start h order next) (t : Nat) (r : R) : .respond next t r ∉ h := by
  intro member
  obtain ⟨op, decided, same⟩ := known.answered _ _ _ member
  injection same with ticket
  have early := known.tickets _ _ _ (known.called op decided)
  rw [ticket] at early
  exact Nat.lt_irrefl _ early

/-- A new call waits. -/
theorem waiting (known : Recorded spec start h order next) (thread : Nat) (call : C) :
    Waiting (h ++ [.invoke next thread call]) order next thread call where
  invoked := List.mem_append_right _ (List.mem_singleton.2 rfl)
  undecided := by
    intro member
    obtain ⟨op, decided, ticket⟩ := List.mem_map.1 member
    have early := known.tickets _ _ _ (known.called op decided)
    rw [ticket] at early
    exact Nat.lt_irrefl _ early
  unanswered := unanswered_invoke known.unanswered next thread call

/-- A waiting call takes effect, with the answer of the sequential object. -/
theorem commit (known : Recorded spec start h order next) (op : Operation C R)
    (waiting : Waiting h order op.ticket op.thread op.call)
    (answer : (spec (final spec start order) op.call).1 = op.result) : Recorded spec start h (order ++ [op]) next := by
  -- nothing of the history comes after the answer to a call that has not been answered
  have last : ∀ {b : Event C R}, ¬ Before h op.responded b := by
    rintro b ⟨i, j, -, here, -⟩
    exact waiting.unanswered _ _ (List.mem_of_getElem? here)
  constructor
  case toLinearizes =>
    constructor
    case legal => exact (legal_append order [op]).2 ⟨known.legal, answer, True.intro⟩
    case once =>
      rw [List.map_append, List.nodup_append]
      refine ⟨known.once, List.nodup_cons.2 ⟨List.not_mem_nil, List.nodup_nil⟩, fun n member n' new => ?_⟩
      rw [List.map_singleton, List.mem_singleton] at new
      rintro rfl
      exact waiting.undecided (new ▸ member)
    case called =>
      intro b member
      rcases List.mem_append.1 member with old | new
      · exact known.called b old
      · rw [List.mem_singleton.1 new]
        exact waiting.invoked
    case answered =>
      intro ticket t result member
      obtain ⟨b, inside, same⟩ := known.answered ticket t result member
      exact ⟨b, List.mem_append_left _ inside, same⟩
    case realTime =>
      intro a first b second before
      rcases List.mem_append.1 first with old | new
      · rcases List.mem_append.1 second with old' | new'
        · exact (known.realTime a old b old' before).append _
        · rw [List.mem_singleton.1 new']
          exact before_last old
      · rw [List.mem_singleton.1 new] at before
        exact absurd before last
    case ownOrder =>
      intro a first b second own before
      rcases List.mem_append.1 first with old | new
      · rcases List.mem_append.1 second with old' | new'
        · exact (known.ownOrder a old b old' own before).append _
        · rw [List.mem_singleton.1 new']
          exact before_last old
      · -- the thread of the waiting call has not called again
        rw [List.mem_singleton.1 new] at before own
        rw [Operation.invoked, Operation.invoked, ← own] at before
        obtain ⟨r, member⟩ := known.sequential _ _ _ _ _ before
        exact absurd member (waiting.unanswered _ _)
  case tickets => exact known.tickets
  case unique => exact known.unique
  case sequential => exact known.sequential

/-- A call that has taken effect is answered. -/
theorem respond (known : Recorded spec start h order next) (member : op ∈ order) :
    Recorded spec start (h ++ [op.responded]) order next := by
  have old : ∀ {n t : Nat} {c : C}, .invoke n t c ∈ h ++ [op.responded] → .invoke n t c ∈ h := by
    intro n t c inside
    rcases List.mem_append.1 inside with before | last
    · exact before
    · cases List.mem_singleton.1 last
  have earlier : ∀ {a : Event C R} {n t : Nat} {c : C}, Before (h ++ [op.responded]) a (.invoke n t c) →
      Before h a (.invoke n t c) := by
    intro a n t c before
    rcases before.of_append with known' | ⟨-, same⟩
    · exact known'
    · cases same
  constructor
  case toLinearizes =>
    constructor
    case legal => exact known.legal
    case once => exact known.once
    case called => exact fun b inside => List.mem_append_left _ (known.called b inside)
    case answered =>
      intro ticket t result inside
      rcases List.mem_append.1 inside with before | last
      · exact known.answered ticket t result before
      · exact ⟨op, member, (List.mem_singleton.1 last).symm⟩
    case realTime => exact fun a first b second before => known.realTime a first b second (earlier before)
    case ownOrder => exact fun a first b second own before => known.ownOrder a first b second own (earlier before)
  case tickets => exact fun n t c inside => known.tickets n t c (old inside)
  case unique => exact fun n t t' c c' inside inside' => known.unique n t t' c c' (old inside) (old inside')
  case sequential =>
    intro n n' t c c' before
    obtain ⟨r, inside⟩ := known.sequential n n' t c c' (earlier before)
    exact ⟨r, List.mem_append_left _ inside⟩

end Recorded

/-! ## What the steps of others leave alone -/

section Others

variable {ticket thread : Nat} {call : C}

theorem Waiting.invoke (w : Waiting h order ticket thread call) (n t : Nat) (c : C) :
    Waiting (h ++ [.invoke n t c]) order ticket thread call where
  invoked := List.mem_append_left _ w.invoked
  undecided := w.undecided
  unanswered := unanswered_invoke w.unanswered n t c

theorem Waiting.commit (w : Waiting h order ticket thread call) (other : op.ticket ≠ ticket) :
    Waiting h (order ++ [op]) ticket thread call where
  invoked := w.invoked
  undecided := by
    rw [List.map_append, List.map_singleton, List.mem_append, List.mem_singleton, not_or]
    exact ⟨w.undecided, other.symm⟩
  unanswered := w.unanswered

theorem Waiting.respond (w : Waiting h order ticket thread call) (other : op.ticket ≠ ticket) :
    Waiting (h ++ [op.responded]) order ticket thread call where
  invoked := List.mem_append_left _ w.invoked
  undecided := w.undecided
  unanswered := unanswered_respond w.unanswered other

variable {op' : Operation C R}

theorem Decided.invoke (d : Decided h order op) (n t : Nat) (c : C) : Decided (h ++ [.invoke n t c]) order op where
  decided := d.decided
  unanswered := unanswered_invoke d.unanswered n t c

theorem Decided.commit (d : Decided h order op) (op' : Operation C R) : Decided h (order ++ [op']) op where
  decided := List.mem_append_left _ d.decided
  unanswered := d.unanswered

theorem Decided.respond (d : Decided h order op) (other : op'.ticket ≠ op.ticket) :
    Decided (h ++ [op'.responded]) order op where
  decided := d.decided
  unanswered := unanswered_respond d.unanswered other

end Others

end Protoactor.Lib
