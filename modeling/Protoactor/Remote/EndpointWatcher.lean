import Mathlib.Data.List.AList
import Protoactor.Actor.Messages
import Protoactor.Lib.Interning

/-!
# The endpoint watcher (`src/remote/endpoint_watcher.cpp`)

`watched_` maps the id of a watcher to the PIDs it watches on the address of the endpoint. It is
the relation of the pairs whose last operation was a watch (`refines_run`), and the watchers of
these are told when the endpoint terminates.
-/

namespace Protoactor.Remote
set_option autoImplicit false
open Lib
open Actor (Ptr)

variable {U K : Type}

/-- `watched_`. -/
abbrev Watched := AList fun _ : String => List Actor.PID

/-- A message for the watcher; `other` is one that it ignores. -/
inductive WatcherMessage where
  | remoteWatch (watcher watchee : Option Actor.PID)
  | remoteUnwatch (watcher watchee : Option Actor.PID)
  | remoteTerminate (watcher watchee : Option Actor.PID)
  | endpointTerminated
  | other
  deriving DecidableEq, Repr

/-- What the watcher does: a message for `Remote::SendMessage`, one for the local process under an
id, and `Stop` of itself. -/
inductive WatcherEffect (U K : Type) where
  | sendMessage (pid : Actor.PID) (message : Ptr U K)
  | sendSystemMessage (id : String) (message : Ptr U K)
  | stopSelf
  deriving DecidableEq, Repr

namespace EndpointWatcher

/-- `push_back` unless there is one with this id. -/
def addWatchee (watchee : Actor.PID) (watchees : List Actor.PID) : List Actor.PID :=
  if watchees.any (·.id = watchee.id) then watchees else watchees ++ [watchee]

/-- `erase` of `remove_if`, and of the entry if nothing is left. -/
def removeWatchee (watcherId : String) (watchee : Actor.PID) (watched : Watched) : Watched :=
  match watched.lookup watcherId with
  | none => watched
  | some watchees =>
    let left := watchees.filter (·.id ≠ watchee.id)
    if left = [] then watched.erase watcherId else watched.insert watcherId left

def handleRemoteWatch (watcher watchee : Actor.PID) (watched : Watched) : List (WatcherEffect U K) × Watched :=
  ([.sendMessage watchee (.watch (some watcher))],
    watched.insert watcher.id (addWatchee watchee ((watched.lookup watcher.id).getD [])))

def handleRemoteUnwatch (watcher watchee : Actor.PID) (watched : Watched) : List (WatcherEffect U K) × Watched :=
  ([.sendMessage watchee (.unwatch (some watcher))], removeWatchee watcher.id watchee watched)

/-- `found` is `GetLocal` of the registry. -/
def handleRemoteTerminate (found : String → Bool) (watcher watchee : Actor.PID) (watched : Watched) :
    List (WatcherEffect U K) × Watched :=
  (if found watcher.id then [.sendSystemMessage watcher.id (.terminated (some watchee) .stopped)] else [],
    removeWatchee watcher.id watchee watched)

def handleEndpointTerminated (found : String → Bool) (watched : Watched) : List (WatcherEffect U K) × Watched :=
  (watched.entries.flatMap (fun entry =>
      if found entry.1 then entry.2.map fun watchee => .sendSystemMessage entry.1 (.terminated (some watchee) .addressTerminated)
      else []) ++ [.stopSelf], ∅)

/-- `Receive`; a watch, an unwatch and a terminate need both PIDs. -/
def receive (found : String → Bool) (watched : Watched) : WatcherMessage → List (WatcherEffect U K) × Watched
  | .remoteWatch (some watcher) (some watchee) => handleRemoteWatch watcher watchee watched
  | .remoteUnwatch (some watcher) (some watchee) => handleRemoteUnwatch watcher watchee watched
  | .remoteTerminate (some watcher) (some watchee) => handleRemoteTerminate found watcher watchee watched
  | .endpointTerminated => handleEndpointTerminated found watched
  | _ => ([], watched)

/-- Message after message, each with the registry as it is then. -/
def run (U K : Type) (messages : List (WatcherMessage × (String → Bool))) : Watched :=
  messages.foldl (fun watched message => (receive message.2 watched message.1 : List (WatcherEffect U K) × Watched).2) ∅

/-! ## The live relation -/

/-- What a message decides about a pair of ids. -/
def decides (pair : String × String) : WatcherMessage → Option Bool
  | .remoteWatch (some watcher) (some watchee) => if (watcher.id, watchee.id) = pair then some true else none
  | .remoteUnwatch (some watcher) (some watchee) => if (watcher.id, watchee.id) = pair then some false else none
  | .remoteTerminate (some watcher) (some watchee) => if (watcher.id, watchee.id) = pair then some false else none
  | .endpointTerminated => some false
  | _ => none

/-- The last decision about the pair is a watch. -/
def Outstanding (history : List WatcherMessage) (pair : String × String) : Prop :=
  history.reverse.findSome? (decides pair) = some true

theorem outstanding_concat (history : List WatcherMessage) (message : WatcherMessage) (pair : String × String) :
    Outstanding (history ++ [message]) pair ↔
      match decides pair message with
      | some answer => answer = true
      | none => Outstanding history pair := by
  unfold Outstanding
  rw [List.reverse_append, List.reverse_singleton, List.singleton_append, List.findSome?_cons]
  cases decides pair message with
  | none => rfl
  | some answer => simp

/-- The map has the pair. -/
def Has (watched : Watched) (pair : String × String) : Prop :=
  ∃ watchees, watched.lookup pair.1 = some watchees ∧ pair.2 ∈ watchees.map Actor.PID.id

/-- **The map is the relation**, with each pair once and no empty entries. -/
structure Refines (history : List WatcherMessage) (watched : Watched) : Prop where
  rows : ∀ watcherId watchees, watched.lookup watcherId = some watchees → watchees ≠ [] ∧ (watchees.map Actor.PID.id).Nodup
  pairs : ∀ pair, Has watched pair ↔ Outstanding history pair

theorem refines_empty : Refines [] ∅ where
  rows := by simp
  pairs := fun pair => by simp [Has, Outstanding]

/-! ## Entries -/

theorem map_addWatchee (watchee : Actor.PID) (watchees : List Actor.PID) :
    (addWatchee watchee watchees).map Actor.PID.id = grow (watchees.map Actor.PID.id) watchee.id := by
  unfold addWatchee grow
  by_cases there : watchees.any (·.id = watchee.id) = true
  · have member : watchee.id ∈ watchees.map Actor.PID.id := by simpa using there
    rw [if_pos there, if_pos member]
  · have absent : watchee.id ∉ watchees.map Actor.PID.id := by simpa using there
    rw [if_neg there, if_neg absent, List.map_append, List.map_singleton]

theorem map_filter_id (watchee : Actor.PID) (watchees : List Actor.PID) :
    (watchees.filter (·.id ≠ watchee.id)).map Actor.PID.id = (watchees.map Actor.PID.id).filter (· ≠ watchee.id) := by
  rw [List.filter_map]
  rfl

/-- A watch adds its pair. -/
theorem has_watch (watcher watchee : Actor.PID) (watched : Watched) (pair : String × String) :
    Has (watched.insert watcher.id (addWatchee watchee ((watched.lookup watcher.id).getD []))) pair ↔
      (watcher.id, watchee.id) = pair ∨ Has watched pair := by
  obtain ⟨w, e⟩ := pair
  by_cases own : w = watcher.id
  · subst own
    simp only [Has, AList.lookup_insert, Option.some.injEq, exists_eq_left', map_addWatchee, mem_grow, Prod.mk.injEq, true_and]
    cases watched.lookup watcher.id with
    | none => simp [eq_comm]
    | some watchees =>
      simp only [Option.getD_some, Option.some.injEq, exists_eq_left']
      exact ⟨fun either => either.symm.imp Eq.symm id, fun either => (either.imp Eq.symm id).symm⟩
  · have other : (watcher.id, watchee.id) ≠ (w, e) := fun same => own (congrArg Prod.fst same).symm
    simp only [Has, AList.lookup_insert_ne own, other, false_or]

/-- An unwatch or a terminate takes its pair away. -/
theorem has_remove (watcherId : String) (watchee : Actor.PID) (watched : Watched) (pair : String × String) :
    Has (removeWatchee watcherId watchee watched) pair ↔ (watcherId, watchee.id) ≠ pair ∧ Has watched pair := by
  obtain ⟨w, e⟩ := pair
  unfold removeWatchee
  by_cases own : w = watcherId
  · subst own
    cases entry : watched.lookup w with
    | none => simp [Has, entry]
    | some watchees =>
      have same : (w, watchee.id) ≠ (w, e) ↔ e ≠ watchee.id := by simp [eq_comm]
      simp only [Has, entry, Option.some.injEq, exists_eq_left', same]
      split
      · rename_i gone
        have none_ : ∀ p ∈ watchees, p.id = watchee.id := by simpa [List.filter_eq_nil_iff] using gone
        rw [AList.lookup_erase]
        simp only [reduceCtorEq, false_and, exists_false, false_iff, not_and]
        intro differs member
        obtain ⟨p, inside, rfl⟩ := List.mem_map.1 member
        exact differs (none_ p inside)
      · rw [AList.lookup_insert]
        simp only [Option.some.injEq, exists_eq_left', map_filter_id, List.mem_filter, decide_eq_true_eq]
        exact and_comm
  · have other : (watcherId, watchee.id) ≠ (w, e) := fun same => own (congrArg Prod.fst same).symm
    cases watched.lookup watcherId with
    | none => simp [Has, other]
    | some watchees =>
      simp only
      split
      · simp only [Has, AList.lookup_erase_ne own, ne_eq, other, not_false_eq_true, true_and]
      · simp only [Has, AList.lookup_insert_ne own, ne_eq, other, not_false_eq_true, true_and]

/-- Each entry of a map with one more watch. -/
theorem rows_watch {watched : Watched} {watcher watchee : Actor.PID}
    (rows : ∀ w ws, watched.lookup w = some ws → ws ≠ [] ∧ (ws.map Actor.PID.id).Nodup) :
    ∀ w ws, (watched.insert watcher.id (addWatchee watchee ((watched.lookup watcher.id).getD []))).lookup w = some ws →
      ws ≠ [] ∧ (ws.map Actor.PID.id).Nodup := by
  intro w ws entry
  by_cases own : w = watcher.id
  · subst own
    rw [AList.lookup_insert] at entry
    cases entry
    constructor
    · intro empty
      have ids := map_addWatchee watchee ((watched.lookup watcher.id).getD [])
      rw [empty, List.map_nil] at ids
      have member : watchee.id ∈ grow (((watched.lookup watcher.id).getD []).map Actor.PID.id) watchee.id := mem_grow.2 (.inr rfl)
      rw [← ids] at member
      cases member
    · rw [map_addWatchee]
      refine nodup_grow ?_ _
      cases before : watched.lookup watcher.id with
      | none => exact List.nodup_nil
      | some watchees => exact (rows watcher.id watchees before).2
  · rw [AList.lookup_insert_ne own] at entry
    exact rows w ws entry

theorem rows_remove {watched : Watched} (watcherId : String) (watchee : Actor.PID)
    (rows : ∀ w ws, watched.lookup w = some ws → ws ≠ [] ∧ (ws.map Actor.PID.id).Nodup) :
    ∀ w ws, (removeWatchee watcherId watchee watched).lookup w = some ws → ws ≠ [] ∧ (ws.map Actor.PID.id).Nodup := by
  intro w ws entry
  unfold removeWatchee at entry
  cases there : watched.lookup watcherId with
  | none =>
    rw [there] at entry
    exact rows w ws entry
  | some watchees =>
    rw [there] at entry
    simp only at entry
    by_cases own : w = watcherId
    · subst own
      split at entry
      · rw [AList.lookup_erase] at entry
        cases entry
      · rename_i left
        rw [AList.lookup_insert] at entry
        cases entry
        refine ⟨left, ?_⟩
        rw [map_filter_id]
        exact (rows w watchees there).2.filter _
    · split at entry
      · rw [AList.lookup_erase_ne own] at entry
        exact rows w ws entry
      · rw [AList.lookup_insert_ne own] at entry
        exact rows w ws entry

/-! ## Runs -/

/-- A message that takes a pair away. -/
theorem Refines.remove {history : List WatcherMessage} {watched : Watched} (refines : Refines history watched)
    {message : WatcherMessage} {watcher watchee : Actor.PID}
    (about : ∀ pair, decides pair message = if (watcher.id, watchee.id) = pair then some false else none) :
    Refines (history ++ [message]) (removeWatchee watcher.id watchee watched) where
  rows := rows_remove watcher.id watchee refines.rows
  pairs := fun pair => by
    rw [has_remove, outstanding_concat, about pair, refines.pairs]
    by_cases own : (watcher.id, watchee.id) = pair
    · simp [own]
    · simp [own]

/-- A message that decides nothing. -/
theorem Refines.other {history : List WatcherMessage} {watched : Watched} (refines : Refines history watched)
    {message : WatcherMessage} (about : ∀ pair, decides pair message = none) : Refines (history ++ [message]) watched where
  rows := refines.rows
  pairs := fun pair => by rw [outstanding_concat, about pair, refines.pairs]

theorem Refines.step {history : List WatcherMessage} {watched : Watched} (refines : Refines history watched)
    (found : String → Bool) (message : WatcherMessage) :
    Refines (history ++ [message]) (receive found watched message : List (WatcherEffect U K) × Watched).2 := by
  cases message with
  | remoteWatch watcher watchee =>
    cases watcher with
    | none => exact refines.other fun pair => rfl
    | some watcher =>
      cases watchee with
      | none => exact refines.other fun pair => rfl
      | some watchee =>
        constructor
        case rows => exact rows_watch refines.rows
        case pairs =>
          intro pair
          change Has (watched.insert watcher.id (addWatchee watchee ((watched.lookup watcher.id).getD []))) pair ↔ _
          rw [has_watch, outstanding_concat, refines.pairs]
          by_cases own : (watcher.id, watchee.id) = pair
          · simp [decides, own]
          · simp [decides, own]
  | remoteUnwatch watcher watchee =>
    cases watcher with
    | none => exact refines.other fun pair => rfl
    | some watcher =>
      cases watchee with
      | none => exact refines.other fun pair => rfl
      | some watchee => exact refines.remove fun pair => rfl
  | remoteTerminate watcher watchee =>
    cases watcher with
    | none => exact refines.other fun pair => rfl
    | some watcher =>
      cases watchee with
      | none => exact refines.other fun pair => rfl
      | some watchee => exact refines.remove fun pair => rfl
  | endpointTerminated =>
    constructor
    case rows =>
      intro w ws entry
      rw [receive, handleEndpointTerminated, AList.lookup_empty] at entry
      cases entry
    case pairs =>
      intro pair
      rw [outstanding_concat]
      simp [receive, handleEndpointTerminated, Has, decides]
  | other => exact refines.other fun pair => rfl

/-- **After every run** the map is the live relation. -/
theorem refines_run (messages : List (WatcherMessage × (String → Bool))) : Refines (messages.map Prod.fst) (run U K messages) := by
  have further : ∀ (rest : List (WatcherMessage × (String → Bool))) (history : List WatcherMessage) (watched : Watched),
      Refines history watched →
      Refines (history ++ rest.map Prod.fst)
        (rest.foldl (fun watched message => (receive message.2 watched message.1 : List (WatcherEffect U K) × Watched).2) watched) := by
    intro rest
    induction rest with
    | nil => exact fun history watched refines => by simpa using refines
    | cons message rest ih =>
      intro history watched refines
      have next := ih (history ++ [message.1]) _ (refines.step (U := U) (K := K) message.2 message.1)
      rw [List.append_assoc, List.singleton_append] at next
      exact next
  exact further messages [] ∅ refines_empty

/-! ## The end of the endpoint -/

/-- The pairs that an effect tells of. -/
def notified (effects : List (WatcherEffect U K)) : List (String × String) :=
  effects.filterMap fun
    | .sendSystemMessage id (.terminated (some watchee) .addressTerminated) => some (id, watchee.id)
    | _ => none

/-- The effects of the loop over the map, pair by pair. -/
theorem notified_endpointTerminated (found : String → Bool) (watched : Watched) :
    notified (handleEndpointTerminated found watched : List (WatcherEffect U K) × Watched).1 =
      watched.entries.flatMap fun entry => if found entry.1 then entry.2.map fun watchee => (entry.1, watchee.id) else [] := by
  unfold notified handleEndpointTerminated
  rw [List.filterMap_append, List.filterMap_flatMap]
  simp only [List.filterMap_cons, List.filterMap_nil, List.append_nil]
  refine congrArg (watched.entries.flatMap ·) (funext fun entry => ?_)
  split
  · rw [List.filterMap_map]
    exact congrFun List.filterMap_eq_map entry.2
  · rfl

/-- The pairs of one entry, if its watcher is registered. -/
theorem mem_told {found : String → Bool} {watcherId : String} {watchees : List Actor.PID} {pair : String × String} :
    pair ∈ (if found watcherId then watchees.map fun watchee => (watcherId, watchee.id) else []) ↔
      watcherId = pair.1 ∧ found pair.1 = true ∧ pair.2 ∈ watchees.map Actor.PID.id := by
  by_cases there : found watcherId = true
  · rw [if_pos there, List.mem_map]
    constructor
    · rintro ⟨watchee, member, rfl⟩
      exact ⟨rfl, there, List.mem_map.2 ⟨watchee, member, rfl⟩⟩
    · rintro ⟨same, _, member⟩
      obtain ⟨watchee, inside, id⟩ := List.mem_map.1 member
      exact ⟨watchee, inside, Prod.ext same id⟩
  · rw [if_neg there]
    simp only [List.not_mem_nil, false_iff, not_and]
    exact fun same registered => absurd (same ▸ registered) there

theorem nodup_told {found : String → Bool} {watcherId : String} {watchees : List Actor.PID}
    (once : (watchees.map Actor.PID.id).Nodup) :
    (if found watcherId then watchees.map fun watchee => (watcherId, watchee.id) else []).Nodup := by
  split
  · have pairs : watchees.map (fun watchee => (watcherId, watchee.id)) = (watchees.map Actor.PID.id).map (Prod.mk watcherId) := by
      rw [List.map_map]
      rfl
    rw [pairs]
    exact once.map fun _ _ same => congrArg Prod.snd same
  · exact List.nodup_nil

/-- The watchers that are registered are told of their pairs, once each. -/
theorem notified_spec {history : List WatcherMessage} {watched : Watched} (refines : Refines history watched) (found : String → Bool) :
    let effects := (handleEndpointTerminated found watched : List (WatcherEffect U K) × Watched).1
    (notified effects).Nodup ∧ ∀ pair, pair ∈ notified effects ↔ Outstanding history pair ∧ found pair.1 = true := by
  intro effects
  have told : notified effects =
      watched.entries.flatMap fun entry => if found entry.1 then entry.2.map fun watchee => (entry.1, watchee.id) else [] :=
    notified_endpointTerminated found watched
  rw [told]
  constructor
  · refine List.nodup_flatMap.2 ⟨fun entry member => ?_, ?_⟩
    · exact nodup_told (refines.rows entry.1 entry.2 (AList.mem_lookup_iff.2 member)).2
    · -- two entries are of two watchers
      have keys : watched.entries.Pairwise fun a b => a.1 ≠ b.1 := List.pairwise_map.1 watched.nodupKeys
      refine keys.imp fun differ => ?_
      intro pair first second
      exact differ ((mem_told.1 first).1.trans (mem_told.1 second).1.symm)
  · intro pair
    rw [← refines.pairs, List.mem_flatMap]
    constructor
    · rintro ⟨entry, member, inside⟩
      obtain ⟨same, registered, there⟩ := mem_told.1 inside
      exact ⟨⟨entry.2, same ▸ AList.mem_lookup_iff.2 member, there⟩, registered⟩
    · rintro ⟨⟨watchees, entry, there⟩, registered⟩
      exact ⟨⟨pair.1, watchees⟩, AList.mem_lookup_iff.1 entry, mem_told.2 ⟨rfl, registered, there⟩⟩

/-- The end of the endpoint sends nothing else, and stops the watcher. -/
theorem mem_endpointTerminated {found : String → Bool} {watched : Watched} {effect : WatcherEffect U K}
    (member : effect ∈ (handleEndpointTerminated found watched).1) :
    effect = .stopSelf ∨ ∃ id watchee, effect = .sendSystemMessage id (.terminated (some watchee) .addressTerminated) := by
  rcases List.mem_append.1 member with told | last
  · obtain ⟨entry, _, inside⟩ := List.mem_flatMap.1 told
    split at inside
    · obtain ⟨watchee, _, rfl⟩ := List.mem_map.1 inside
      exact .inr ⟨entry.1, watchee, rfl⟩
    · cases inside
  · exact .inl (List.mem_singleton.1 last)

/-- **The watcher keeps the live relation**, and the end of the endpoint tells each pair of it once. -/
theorem live_relation (messages : List (WatcherMessage × (String → Bool))) (found : String → Bool) :
    let history := messages.map Prod.fst
    let ended : List (WatcherEffect U K) × Watched := receive found (run U K messages) .endpointTerminated
    Refines history (run U K messages) ∧ (notified ended.1).Nodup ∧
      (∀ pair, pair ∈ notified ended.1 ↔ Outstanding history pair ∧ found pair.1 = true) ∧
      (∀ effect ∈ ended.1, effect = .stopSelf ∨
        ∃ id watchee, effect = .sendSystemMessage id (.terminated (some watchee) .addressTerminated)) ∧
      ended.2 = ∅ := by
  intro history ended
  have refines : Refines history (run U K messages) := refines_run messages
  obtain ⟨once, pairs⟩ := notified_spec (U := U) (K := K) refines found
  exact ⟨refines, once, pairs, fun effect member => mem_endpointTerminated member, rfl⟩

end EndpointWatcher

end Protoactor.Remote
