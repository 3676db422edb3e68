import Mathlib.Algebra.GroupWithZero.Nat
import Protoactor.Lib.Int32
import Protoactor.Lib.Pool

/-!
# The event stream (`src/actor/eventstream.cpp`)

`EventStream` and its `Subscription` objects, each call run to its end before the next one
begins. A pointer to a subscription is its position among all objects made so far; the
stream finds an entry of `subscriptions_` by the `id_` of the object it points to. The
id of a subscription is the value that `counter_` has when it subscribes.
-/

namespace Protoactor.Actor
set_option autoImplicit false
open Lib

variable {Evt H : Type}

structure Subscription (Evt H : Type) where
  id : Int
  handler : H
  predicate : Option (Evt → Bool)
  active : Bool

structure EventStream (Evt H : Type) where
  objects : List (Subscription Evt H)
  subscriptions : List Nat
  counter : Int

namespace EventStream

/-- The constructor. -/
def new : EventStream Evt H := ⟨[], [], 0⟩

def isActive (s : EventStream Evt H) (subscription : Nat) : Bool := s.objects[subscription]?.any (·.active)

def subscribe (handler : H) (s : EventStream Evt H) : EventStream Evt H where
  objects := s.objects ++ [⟨s.counter, handler, none, true⟩]
  subscriptions := s.subscriptions ++ [s.objects.length]
  counter := int32 (s.counter + 1)

def subscribeWithPredicate (handler : H) (predicate : Evt → Bool) (s : EventStream Evt H) : EventStream Evt H :=
  let s' := s.subscribe handler
  { s' with objects := s'.objects.modify s.objects.length fun sub => { sub with predicate := some predicate } }

/-- What `find_if` looks for: an entry with the id of the subscription. -/
def sameId (s : EventStream Evt H) (subscription entry : Nat) : Bool :=
  s.objects[entry]?.map Subscription.id == s.objects[subscription]?.map Subscription.id

def unsubscribe (subscription : Option Nat) (s : EventStream Evt H) : EventStream Evt H :=
  match subscription with
  | none => s
  | some subscription =>
    if s.isActive subscription then
      let s' := { s with objects := s.objects.modify subscription fun sub => { sub with active := false } }
      if s.subscriptions.any (s.sameId subscription) then
        { s' with subscriptions := s.subscriptions.eraseP (s.sameId subscription), counter := int32 (s.counter - 1) }
      else s'
    else s

/-- The handlers that are called, in order, each with the subscription it is called for. -/
def publish (evt : Evt) (s : EventStream Evt H) : List (Nat × H) :=
  let subs := s.subscriptions.filter s.isActive
  subs.filterMap fun ref => s.objects[ref]?.bind fun sub =>
    if sub.predicate.all (· evt) then some (ref, sub.handler) else none

def length (s : EventStream Evt H) : Int := s.counter

end EventStream

end Protoactor.Actor
