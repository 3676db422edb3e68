import Mathlib.Data.List.Induction
import Mathlib.Data.List.Nodup
import Protoactor.Lib.Int32
import Protoactor.Remote.Messages

/-!
# The ids of the serializers (`src/remote/serializer.cpp`, `src/remote/proto_serializer.cpp`, `src/remote/json_serializer.cpp`)

The registry again, now with `GetSerializerID` and with ids that are `int32_t`. The two registrars are static objects of
different translation units: nothing says which of them runs first, so the order of registration is an argument here.
-/

namespace Protoactor.Remote
set_option autoImplicit false

open Lib

variable {M : Type}

/-- A `Serializer` with the id that it says it has. -/
structure NumberedSerializer (M : Type) extends Serializer M where
  getSerializerID : Int

namespace NumberedSerializer

/-- What `Serialize` makes of a message with this serializer. -/
def encode (serializer : NumberedSerializer M) (message : M) : Except Exception (List UInt8 × String) := do
  let bytes ← serializer.serialize message
  let typeName ← serializer.getTypeName message
  return (bytes, typeName)

/-- There is a message that it does not refuse. -/
def Produces (serializer : NumberedSerializer M) : Prop := ∃ message out, serializer.encode message = .ok out

end NumberedSerializer

/-- `ProtoSerializer`, a placeholder. -/
def protoSerializer : NumberedSerializer M where
  serialize _ := .ok []
  deserialize _ _ := .error (.exception "ProtoSerializer::Deserialize not yet implemented")
  getTypeName _ := .ok ""
  getSerializerID := 0

/-- `JSONSerializer` where JSON is enabled, another one; `name` is that of the `typeid`. -/
def jsonSerializer (name : M → String) : NumberedSerializer M where
  serialize _ := .ok []
  deserialize _ _ := .error (.exception "JSONSerializer::Deserialize not yet implemented")
  getTypeName message := .ok (name message)
  getSerializerID := 1

structure NumberedRegistry (M : Type) where
  serializers : List (NumberedSerializer M)
  defaultSerializerId : Int

namespace NumberedRegistry

def new : NumberedRegistry M := ⟨[], 0⟩

/-- `RegisterSerializer`: the id is the number of those that came before. -/
def registerSerializer (serializer : NumberedSerializer M) (r : NumberedRegistry M) : Int × NumberedRegistry M :=
  let id := int32 r.serializers.length
  (id, ⟨r.serializers ++ [serializer], if id = 0 then 0 else r.defaultSerializerId⟩)

def getSerializer (r : NumberedRegistry M) (serializerId : Int) : Option (NumberedSerializer M) :=
  if serializerId < 0 ∨ int32 r.serializers.length ≤ serializerId then none else r.serializers[serializerId.toNat]?

/-- The serializer that `Serialize` looks up. -/
def serializesWith (r : NumberedRegistry M) (serializerId : Int) : Option (NumberedSerializer M) :=
  r.getSerializer (if serializerId < 0 then r.defaultSerializerId else serializerId)

def serialize (r : NumberedRegistry M) (message : M) (serializerId : Int) : Except Exception (List UInt8 × String) :=
  match r.serializesWith serializerId with
  | none => .error (.exception ("Serializer not found: " ++ toString (if serializerId < 0 then r.defaultSerializerId else serializerId)))
  | some serializer => serializer.encode message

def deserialize (r : NumberedRegistry M) (bytes : List UInt8) (typeName : String) (serializerId : Int) : Except Exception M :=
  match r.getSerializer serializerId with
  | none => .error (.exception ("Serializer not found: " ++ toString serializerId))
  | some serializer => serializer.deserialize typeName bytes

/-- A node where these are registered, in this order. -/
def registerAll (order : List (NumberedSerializer M)) : NumberedRegistry M :=
  order.foldl (fun r serializer => (r.registerSerializer serializer).2) new

/-- The registry without the ids that nothing in it asks for. -/
def forget (r : NumberedRegistry M) : SerializerRegistry M :=
  ⟨r.serializers.map NumberedSerializer.toSerializer, r.defaultSerializerId⟩

/-- The serializers registered in this order **have the ids they say**: each is found under its own id, and has been
given that id when it was registered. -/
structure OwnIds (order : List (NumberedSerializer M)) : Prop where
  found : ∀ serializer ∈ order, (registerAll order).getSerializer serializer.getSerializerID = some serializer
  given : ∀ earlier serializer later, order = earlier ++ serializer :: later →
    ((registerAll earlier).registerSerializer serializer).1 = serializer.getSerializerID

/-- **The same on both nodes**: the ids are the serializers' own on each, and what is serialized with `serializerId` on one
node is deserialized by the same serializer on the other. -/
structure SameMeaning (order other : List (NumberedSerializer M)) (serializerId : Int) : Prop where
  here : OwnIds order
  there : OwnIds other
  handed : ∀ message out, (registerAll order).serialize message serializerId = .ok out →
    ∃ serializer, (registerAll order).serializesWith serializerId = some serializer ∧
      (registerAll other).getSerializer serializerId = some serializer

/-! ## The registry -/

variable {r : NumberedRegistry M} {serializer : NumberedSerializer M} {order other : List (NumberedSerializer M)} {serializerId : Int}

/-- The default never moves: the first serializer gets the id `0`, and it was `0` before. -/
theorem registerSerializer_zero (zero : r.defaultSerializerId = 0) (serializer : NumberedSerializer M) :
    (r.registerSerializer serializer).2 = ⟨r.serializers ++ [serializer], 0⟩ := by
  unfold registerSerializer
  dsimp only
  rw [zero, ite_self]

theorem registerAll_eq (order : List (NumberedSerializer M)) : registerAll order = ⟨order, 0⟩ := by
  induction order using List.reverseRecOn with
  | nil => rfl
  | append_singleton order serializer ih =>
    have last : registerAll (order ++ [serializer]) = ((registerAll order).registerSerializer serializer).2 := by
      unfold registerAll
      rw [List.foldl_append]
      rfl
    rw [last, ih]
    exact registerSerializer_zero rfl serializer

/-- Whatever the serializer says, its id is its position. -/
theorem registerAll_id (order : List (NumberedSerializer M)) (serializer : NumberedSerializer M) :
    ((registerAll order).registerSerializer serializer).1 = int32 order.length := by
  rw [registerAll_eq]
  unfold registerSerializer
  dsimp only

theorem getSerializer_some (found : r.getSerializer serializerId = some serializer) :
    0 ≤ serializerId ∧ serializerId < int32 r.serializers.length ∧ r.serializers[serializerId.toNat]? = some serializer := by
  unfold getSerializer at found
  split at found
  · cases found
  · next inside => exact ⟨by omega, by omega, found⟩

/-- As long as the positions are ids, they are looked up as such. -/
theorem getSerializer_position (small : order.length < 2 ^ 31) {position : Nat} (there : order[position]? = some serializer) :
    (registerAll order).getSerializer position = some serializer := by
  have inside := (List.getElem?_eq_some_iff.1 there).1
  rw [registerAll_eq]
  unfold getSerializer
  dsimp only
  rw [int32_of_range (by omega) (by omega), if_neg (by omega)]
  exact there

theorem serialize_ok {message : M} {out : List UInt8 × String} :
    r.serialize message serializerId = .ok out ↔
      ∃ serializer, r.serializesWith serializerId = some serializer ∧ serializer.encode message = .ok out := by
  unfold serialize
  cases r.serializesWith serializerId with
  | none => simp only [reduceCtorEq, false_and, exists_false]
  | some serializer => simp only [Option.some.injEq, exists_eq_left']

/-! ## Against the registry without own ids -/

theorem forget_defaultSerializerId : r.forget.defaultSerializerId = r.defaultSerializerId := rfl

/-- Below `2 ^ 31` serializers the two registries give the same ids. -/
theorem forget_registerSerializer (small : r.serializers.length < 2 ^ 31) (serializer : NumberedSerializer M) :
    r.forget.registerSerializer serializer.toSerializer =
      ((r.registerSerializer serializer).1, (r.registerSerializer serializer).2.forget) := by
  unfold registerSerializer SerializerRegistry.registerSerializer forget
  rw [int32_of_range (by omega) (by omega)]
  dsimp only
  rw [List.map_append, List.length_map]
  rfl

theorem forget_getSerializer (small : r.serializers.length < 2 ^ 31) (serializerId : Int) :
    r.forget.getSerializer serializerId = (r.getSerializer serializerId).map NumberedSerializer.toSerializer := by
  unfold getSerializer SerializerRegistry.getSerializer forget
  rw [int32_of_range (by omega) (by omega), List.length_map, List.getElem?_map]
  split <;> rfl

theorem forget_serialize (small : r.serializers.length < 2 ^ 31) (message : M) (serializerId : Int) :
    r.forget.serialize message serializerId = r.serialize message serializerId := by
  unfold serialize SerializerRegistry.serialize serializesWith
  dsimp only
  rw [forget_getSerializer small, forget_defaultSerializerId]
  cases r.getSerializer (if serializerId < 0 then r.defaultSerializerId else serializerId) <;> rfl

theorem forget_deserialize (small : r.serializers.length < 2 ^ 31) (bytes : List UInt8) (typeName : String) (serializerId : Int) :
    r.forget.deserialize bytes typeName serializerId = r.deserialize bytes typeName serializerId := by
  unfold deserialize SerializerRegistry.deserialize
  rw [forget_getSerializer small]
  cases r.getSerializer serializerId <;> rfl

/-! ## When the ids mean the same -/

/-- Registered in the order of the ids, `0` first. -/
def InOrder (order : List (NumberedSerializer M)) : Prop :=
  ∀ (position : Nat) serializer, order[position]? = some serializer → serializer.getSerializerID = position

/-- What is found under its own id stands at that position. -/
theorem ownIds_inOrder (distinct : (order.map NumberedSerializer.getSerializerID).Nodup) (own : OwnIds order) : InOrder order := by
  intro position serializer there
  obtain ⟨nonneg, -, found⟩ := getSerializer_some (own.found serializer (List.mem_of_getElem? there))
  rw [registerAll_eq] at found
  have inside := (List.getElem?_eq_some_iff.1 there).1
  have same : position = serializer.getSerializerID.toNat :=
    (List.getElem?_inj inside (List.Nodup.of_map _ distinct)).1 (there.trans found.symm)
  omega

/-- The last one is found too, so the positions have not left the range of the ids. -/
theorem ownIds_small (inOrder : InOrder order) (own : OwnIds order) : order.length < 2 ^ 31 := by
  by_contra many
  have inside : order.length - 1 < order.length := by omega
  have last := List.getElem?_eq_getElem inside
  obtain ⟨-, below, -⟩ := getSerializer_some (own.found _ (List.mem_of_getElem? last))
  rw [inOrder _ _ last] at below
  have high := int32_high (registerAll order).serializers.length
  omega

theorem inOrder_ownIds (small : order.length < 2 ^ 31) (inOrder : InOrder order) : OwnIds order where
  found serializer inside := by
    obtain ⟨position, there⟩ := List.getElem?_of_mem inside
    rw [inOrder position serializer there]
    exact getSerializer_position small there
  given earlier serializer later split := by
    subst split
    have there : (earlier ++ serializer :: later)[earlier.length]? = some serializer := by
      rw [List.getElem?_append_right le_rfl, Nat.sub_self, List.getElem?_cons_zero]
    rw [List.length_append] at small
    rw [inOrder _ _ there, registerAll_id]
    exact int32_of_range (by omega) (by omega)

/-- There is only one such order. -/
theorem inOrder_unique (distinct : (order.map NumberedSerializer.getSerializerID).Nodup) (reordered : other.Perm order)
    (inOrder : InOrder order) (alsoThere : InOrder other) : other = order := by
  refine List.ext_getElem reordered.length_eq fun position there here => ?_
  have first := List.getElem?_eq_getElem there
  have second := List.getElem?_eq_getElem here
  refine List.inj_on_of_nodup_map distinct (reordered.subset (List.getElem_mem there)) (List.getElem_mem here) ?_
  rw [alsoThere _ _ first, inOrder _ _ second]

/-- A negative id is the default for `Serialize`, and no id at all for `Deserialize`. -/
theorem handed_iff (small : order.length < 2 ^ 31) :
    (∀ message out, (registerAll order).serialize message serializerId = .ok out →
      ∃ serializer, (registerAll order).serializesWith serializerId = some serializer ∧
        (registerAll order).getSerializer serializerId = some serializer) ↔
      0 ≤ serializerId ∨ ∀ first ∈ order.head?, ¬ first.Produces := by
  by_cases negative : serializerId < 0
  · have default : (registerAll order).serializesWith serializerId = (registerAll order).getSerializer 0 := by
      unfold serializesWith
      rw [if_pos negative, registerAll_eq]
    have nothing : (registerAll order).getSerializer serializerId = none := if_pos (.inl negative)
    constructor
    · rintro handed
      refine .inr fun first there produces => ?_
      obtain ⟨message, out, encoded⟩ := produces
      have found : (registerAll order).getSerializer (0 : Nat) = some first :=
        getSerializer_position small (by rwa [← List.head?_eq_getElem?])
      obtain ⟨_, -, back⟩ := handed message out (serialize_ok.2 ⟨first, default.trans found, encoded⟩)
      rw [nothing] at back
      cases back
    · rintro (nonneg | refused) message out done
      · omega
      · obtain ⟨first, found, encoded⟩ := serialize_ok.1 done
        rw [default] at found
        obtain ⟨-, -, there⟩ := getSerializer_some found
        rw [registerAll_eq] at there
        exact absurd ⟨message, out, encoded⟩ (refused first (by rwa [List.head?_eq_getElem?]))
  · have same : (registerAll order).serializesWith serializerId = (registerAll order).getSerializer serializerId := by
      unfold serializesWith
      rw [if_neg negative]
    refine ⟨fun _ => .inl (by omega), fun _ message out done => ?_⟩
    obtain ⟨serializer, found, -⟩ := serialize_ok.1 done
    exact ⟨serializer, found, same ▸ found⟩

/-- **The ids mean the same exactly if** both nodes register the serializers in one order, that of their ids from `0` on; and if
no negative id is used, which `Serialize` and `Deserialize` do not read alike. -/
theorem sameMeaning_iff (distinct : (order.map NumberedSerializer.getSerializerID).Nodup) (reordered : other.Perm order)
    (serializerId : Int) :
    SameMeaning order other serializerId ↔
      other = order ∧ InOrder order ∧ order.length < 2 ^ 31 ∧ (0 ≤ serializerId ∨ ∀ first ∈ order.head?, ¬ first.Produces) := by
  constructor
  · intro same
    have inOrder := ownIds_inOrder distinct same.here
    have alsoThere := ownIds_inOrder ((reordered.map _).nodup_iff.2 distinct) same.there
    have one := inOrder_unique distinct reordered inOrder alsoThere
    have small := ownIds_small inOrder same.here
    subst one
    exact ⟨rfl, inOrder, small, (handed_iff small).1 same.handed⟩
  · rintro ⟨rfl, inOrder, small, named⟩
    exact ⟨inOrder_ownIds small inOrder, inOrder_ownIds small inOrder, (handed_iff small).2 named⟩

/-- The order of their ids on both nodes. -/
theorem sameMeaning_iff_registrars :
    SameMeaning [protoSerializer, jsonSerializer fun () => "v"] [protoSerializer, jsonSerializer fun () => "v"] 1 := by
  refine (sameMeaning_iff (by decide) (.refl _) 1).2 ⟨rfl, ?_, by decide, .inl (by decide)⟩
  rintro (_ | _ | position) serializer ⟨⟩ <;> rfl

/-- `JSONSerializer` registered first on one of them. -/
theorem not_sameMeaning :
    ([jsonSerializer fun () => "v", protoSerializer].map NumberedSerializer.getSerializerID).Nodup ∧
      [protoSerializer, jsonSerializer fun () => "v"].Perm [jsonSerializer fun () => "v", protoSerializer] ∧
      ¬ SameMeaning [jsonSerializer fun () => "v", protoSerializer] [protoSerializer, jsonSerializer fun () => "v"] 0 := by
  refine ⟨by decide, .swap _ _ _, fun same => ?_⟩
  have given := same.here.given [] _ _ rfl
  rw [registerAll_id] at given
  cases given

end NumberedRegistry

end Protoactor.Remote
