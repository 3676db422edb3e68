import Protoactor.Remote.EndpointWatcher

/-!
# Whom the endpoint watcher tells

`HandleEndpointTerminated` tells of the pairs in `watched_`. `HandleRemoteTerminate` takes its pair
out and tells the watcher in any case, also where the pair was not there. So a run tells only of
outstanding pairs just when its terminates are about outstanding pairs (`onlyOutstanding_iff`).
-/

namespace Protoactor.Remote
set_option autoImplicit false
open Actor (Ptr)

variable {U K : Type}

namespace EndpointWatcher

instance (history : List WatcherMessage) (pair : String × String) : Decidable (Outstanding history pair) :=
  inferInstanceAs (Decidable (_ = some true))

/-- The pairs that the `Terminated` among the effects tell of, for either reason. -/
def told (effects : List (WatcherEffect U K)) : List (String × String) :=
  effects.filterMap fun
    | .sendSystemMessage id (.terminated (some watchee) _) => some (id, watchee.id)
    | _ => none

/-- Everything that the handling of the messages tells. -/
def notices (U K : Type) : Watched → List (WatcherMessage × (String → Bool)) → List (String × String)
  | _, [] => []
  | watched, message :: rest =>
    let handled : List (WatcherEffect U K) × Watched := receive message.2 watched message.1
    told handled.1 ++ notices U K handled.2 rest

/-- A message is a `RemoteWatch` of the pair. -/
def watches (pair : String × String) (message : WatcherMessage × (String → Bool)) : Bool :=
  decides pair message.1 = some true

/-- **Terminated for what is watched only**: at each message of the run it is sent for outstanding
pairs, and up to there at most once for each `RemoteWatch`. -/
structure OnlyOutstanding (U K : Type) (messages : List (WatcherMessage × (String → Bool))) : Prop where
  outstanding : ∀ before message after, messages = before ++ message :: after →
    ∀ pair ∈ told (receive message.2 (run U K before) message.1 : List (WatcherEffect U K) × Watched).1,
      Outstanding (before.map Prod.fst) pair
  once : ∀ before after, messages = before ++ after →
    ∀ pair, (notices U K ∅ before).count pair ≤ before.countP (watches pair)

/-- A `RemoteTerminate` for a watcher that is registered comes while its pair is outstanding. -/
def ExpectedAt (history : List WatcherMessage) (message : WatcherMessage × (String → Bool)) : Prop :=
  ∀ watcher watchee, message.1 = .remoteTerminate (some watcher) (some watchee) → message.2 watcher.id = true →
    Outstanding history (watcher.id, watchee.id)

/-- Each of the messages does, `history` before them. -/
def Expected (history : List WatcherMessage) (messages : List (WatcherMessage × (String → Bool))) : Prop :=
  ∀ before message after, messages = before ++ message :: after → ExpectedAt (history ++ before.map Prod.fst) message

/-! ## One message -/

theorem told_remoteTerminate (found : String → Bool) (watcher watchee : Actor.PID) (watched : Watched) :
    told (handleRemoteTerminate found watcher watchee watched : List (WatcherEffect U K) × Watched).1 =
      if found watcher.id then [(watcher.id, watchee.id)] else [] := by
  unfold handleRemoteTerminate
  split
  · rfl
  · rfl

theorem told_endpointTerminated (found : String → Bool) (watched : Watched) :
    told (handleEndpointTerminated found watched : List (WatcherEffect U K) × Watched).1 =
      notified (handleEndpointTerminated found watched : List (WatcherEffect U K) × Watched).1 := by
  refine List.filterMap_congr fun effect member => ?_
  rcases mem_endpointTerminated member with rfl | ⟨id, watchee, rfl⟩
  · rfl
  · rfl

/-- What one message tells: each pair once, and none of these is outstanding afterwards. -/
theorem told_spec {history : List WatcherMessage} {watched : Watched} (refines : Refines history watched)
    (message : WatcherMessage × (String → Bool)) :
    let pairs := told (receive message.2 watched message.1 : List (WatcherEffect U K) × Watched).1
    pairs.Nodup ∧ ∀ pair ∈ pairs, decides pair message.1 = some false ∧
      (ExpectedAt history message → Outstanding history pair) := by
  obtain ⟨message, found⟩ := message
  cases message with
  | remoteWatch watcher watchee => cases watcher <;> cases watchee <;> simp [receive, handleRemoteWatch, told]
  | remoteUnwatch watcher watchee => cases watcher <;> cases watchee <;> simp [receive, handleRemoteUnwatch, told]
  | remoteTerminate watcher watchee =>
    cases watcher with
    | none => simp [receive, told]
    | some watcher =>
      cases watchee with
      | none => simp [receive, told]
      | some watchee =>
        simp only [receive, told_remoteTerminate]
        split
        · rename_i registered
          refine ⟨List.nodup_singleton _, fun pair member => ?_⟩
          cases List.mem_singleton.1 member
          exact ⟨if_pos rfl, fun expected => expected watcher watchee rfl registered⟩
        · exact ⟨List.nodup_nil, fun pair member => absurd member (List.not_mem_nil)⟩
  | endpointTerminated =>
    obtain ⟨once, members⟩ := notified_spec (U := U) (K := K) refines found
    simp only [receive, told_endpointTerminated]
    exact ⟨once, fun pair member => ⟨rfl, fun _ => ((members pair).1 member).1⟩⟩
  | other => simp [receive, told]

/-- Told and still outstanding afterwards is at most outstanding before, and watched now. -/
theorem told_account {history : List WatcherMessage} {watched : Watched} (refines : Refines history watched)
    {message : WatcherMessage × (String → Bool)} (expected : ExpectedAt history message) (pair : String × String) :
    (told (receive message.2 watched message.1 : List (WatcherEffect U K) × Watched).1).count pair +
        (if Outstanding (history ++ [message.1]) pair then 1 else 0) ≤
      (if Outstanding history pair then 1 else 0) + if watches pair message then 1 else 0 := by
  obtain ⟨once, members⟩ := told_spec (U := U) (K := K) refines message
  by_cases member : pair ∈ told (receive message.2 watched message.1 : List (WatcherEffect U K) × Watched).1
  · obtain ⟨ended, before⟩ := members pair member
    have after : ¬ Outstanding (history ++ [message.1]) pair := by
      rw [outstanding_concat, ended]
      exact Bool.false_ne_true
    rw [if_neg after, if_pos (before expected), List.count_eq_one_of_mem once member]
    omega
  · have after := outstanding_concat history message.1 pair
    rw [List.count_eq_zero_of_not_mem member]
    cases decided : decides pair message.1 with
    | none => simp [watches, decided, after]
    | some answer => cases answer <;> simp [watches, decided, after]

/-! ## Runs -/

theorem Expected.head {history : List WatcherMessage} {message : WatcherMessage × (String → Bool)}
    {rest : List (WatcherMessage × (String → Bool))} (expected : Expected history (message :: rest)) :
    ExpectedAt history message := by
  have now := expected [] message rest rfl
  rwa [List.map_nil, List.append_nil] at now

theorem Expected.tail {history : List WatcherMessage} {message : WatcherMessage × (String → Bool)}
    {rest : List (WatcherMessage × (String → Bool))} (expected : Expected history (message :: rest)) :
    Expected (history ++ [message.1]) rest := by
  rintro before next after rfl
  have later := expected (message :: before) next after rfl
  rwa [List.map_cons, List.append_cons] at later

theorem Expected.left {history : List WatcherMessage} {before after : List (WatcherMessage × (String → Bool))}
    (expected : Expected history (before ++ after)) : Expected history before := by
  rintro first message last rfl
  exact expected first message (last ++ after) (by simp)

/-- Over a run that expects its terminates. -/
theorem notices_account {history : List WatcherMessage} {watched : Watched} (refines : Refines history watched)
    {messages : List (WatcherMessage × (String → Bool))} (expected : Expected history messages) (pair : String × String) :
    (notices U K watched messages).count pair +
        (if Outstanding (history ++ messages.map Prod.fst) pair then 1 else 0) ≤
      (if Outstanding history pair then 1 else 0) + messages.countP (watches pair) := by
  induction messages generalizing history watched with
  | nil => simp [notices]
  | cons message rest ih =>
    have now := told_account (U := U) (K := K) refines expected.head pair
    have further := ih (refines.step (U := U) (K := K) message.2 message.1) expected.tail
    rw [List.append_assoc, List.singleton_append] at further
    rw [notices, List.count_append, List.countP_cons, List.map_cons]
    omega

/-- **Exactly then**: a run tells only of outstanding pairs, at most once for each watch, if and only
if each `RemoteTerminate` of it is about an outstanding pair or a watcher that is not registered. -/
theorem onlyOutstanding_iff (messages : List (WatcherMessage × (String → Bool))) :
    OnlyOutstanding U K messages ↔ Expected [] messages := by
  constructor
  · rintro only before ⟨message, found⟩ after split watcher watchee kind registered
    refine only.outstanding before (message, found) after split (watcher.id, watchee.id) ?_
    subst kind
    rw [receive, told_remoteTerminate, if_pos registered]
    exact List.mem_singleton_self _
  · intro expected
    constructor
    case outstanding =>
      intro before message after split pair member
      exact ((told_spec (refines_run before) message).2 pair member).2 (expected before message after split)
    case once =>
      rintro before after rfl pair
      have account := notices_account (U := U) (K := K) refines_empty expected.left pair
      have nothing : ¬ Outstanding [] pair := by simp [Outstanding]
      rw [if_neg nothing] at account
      omega

/-- A terminate that crosses an unwatch: the watcher is told of an actor that it no longer watches. -/
theorem not_onlyOutstanding_crossing :
    let watcher : Actor.PID := ⟨0, "here:1", "watcher"⟩
    let watchee : Actor.PID := ⟨1, "there:2", "watchee"⟩
    ¬ OnlyOutstanding Empty Empty
      [(.remoteWatch watcher watchee, fun _ => true), (.remoteUnwatch watcher watchee, fun _ => true),
        (.remoteTerminate watcher watchee, fun _ => true)] := by
  intro watcher watchee only
  have outstanding := only.outstanding
    [(.remoteWatch watcher watchee, fun _ => true), (.remoteUnwatch watcher watchee, fun _ => true)] _ [] rfl
    ("watcher", "watchee") (List.mem_singleton_self _)
  exact absurd outstanding (by decide)

end EndpointWatcher

end Protoactor.Remote
