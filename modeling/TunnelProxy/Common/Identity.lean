import Mathlib.Algebra.Group.Nat.Defs
import Mathlib.Data.List.Basic

/-!
# Durable identifiers and digests

`AgentId` and `TunnelId` are checked strings with the same rule; `DurableId` is both
of them, told apart by their kind. A Rust string is modelled by its bytes, so that
its order is the order of `String`. `FixedBytes` is the byte array of a digest or of a
request id.
-/

namespace TunnelProxy.Common

open Std

/-- The bytes of a string. -/
abbrev Text := List UInt8

/-- A property of all bytes is checked byte by byte. -/
instance decidableForallByte {P : UInt8 → Prop} [DecidablePred P] : Decidable (∀ byte, P byte) :=
  decidable_of_iff (∀ b : Fin 256, P ⟨⟨b⟩⟩) ⟨fun h byte => h byte.toBitVec.toFin, fun h _ => h _⟩

def maxDurableIdBytes : Nat := 64

inductive DurableIdError where
  | empty
  | tooLong (actual : Nat)
  | invalidCharacter (index : Nat) (byte : UInt8)
deriving DecidableEq, Repr

def isAsciiAlphanumeric (byte : UInt8) : Bool :=
  (48 ≤ byte && byte ≤ 57) || (65 ≤ byte && byte ≤ 90) || (97 ≤ byte && byte ≤ 122)

/-- Letters, digits, `-` and `_`. -/
def isDurableIdByte (byte : UInt8) : Bool :=
  isAsciiAlphanumeric byte || byte = 45 || byte = 95

/-- The loop over the bytes, with their indexes. -/
def checkBytes (index : Nat) : Text → Except DurableIdError Unit
  | [] => .ok ()
  | byte :: rest =>
    if isDurableIdByte byte then checkBytes (index + 1) rest
    else .error (.invalidCharacter index byte)

def validateDurableId (value : Text) : Except DurableIdError Unit :=
  if value.isEmpty then .error .empty
  else if maxDurableIdBytes < value.length then .error (.tooLong value.length)
  else checkBytes 0 value

inductive IdKind where
  | agent
  | tunnel

/-- A string that passed the check. -/
@[ext]
structure DurableId (kind : IdKind) where
  text : Text
  valid : validateDurableId text = .ok ()
deriving DecidableEq

abbrev AgentId := DurableId .agent

abbrev TunnelId := DurableId .tunnel

namespace DurableId

variable {kind : IdKind} {value : Text}

def new (value : Text) : Except DurableIdError (DurableId kind) :=
  match h : validateDurableId value with
  | .ok () => .ok ⟨value, h⟩
  | .error error => .error error

/-- An identifier read back from its own text is the same. -/
theorem new_text (id : DurableId kind) : new id.text = .ok id := by
  unfold new
  split
  · rfl
  · rename_i hError
    cases id.valid.symm.trans hError

instance : Ord (DurableId kind) := ⟨fun a b => compare a.text b.text⟩

instance : TransOrd (DurableId kind) where
  eq_swap {a b} := OrientedOrd.eq_swap (a := a.text) (b := b.text)
  isLE_trans {a b c} := TransOrd.isLE_trans (a := a.text) (b := b.text) (c := c.text)

instance : LawfulEqOrd (DurableId kind) where
  compare_self {a} := ReflOrd.compare_self (a := a.text)
  eq_of_compare {_ _} h := DurableId.ext (LawfulEqOrd.eq_of_compare h)

theorem checkBytes_eq_ok {index : Nat} :
    checkBytes index value = .ok () ↔ ∀ byte ∈ value, isDurableIdByte byte := by
  induction value generalizing index with
  | nil => simp [checkBytes]
  | cons _ _ ih =>
    unfold checkBytes
    split_ifs with hByte
    · simp [hByte, ih]
    · simp [hByte]

/-- What an accepted identifier looks like. -/
theorem valid_iff : validateDurableId value = .ok () ↔
      value ≠ [] ∧ value.length ≤ maxDurableIdBytes ∧ ∀ byte ∈ value, isDurableIdByte byte := by
  unfold validateDurableId
  split_ifs with hEmpty hLong
  · simp [List.isEmpty_iff.mp hEmpty]
  · simp [Nat.not_le.mpr hLong]
  · have hNe : value ≠ [] := by simpa using hEmpty
    rw [checkBytes_eq_ok]
    exact ⟨fun h => ⟨hNe, Nat.le_of_not_lt hLong, h⟩, fun h => h.2.2⟩

theorem valid_a : validateDurableId [97] = .ok () := rfl

theorem valid_b : validateDurableId [98] = .ok () := rfl

theorem valid_w : validateDurableId [119] = .ok () := rfl

theorem valid_web : validateDurableId [119, 101, 98] = .ok () := rfl

end DurableId

/-- A byte array of fixed length, ordered by its bytes. -/
@[ext]
structure FixedBytes (n : Nat) where
  bytes : List UInt8
  length_eq : bytes.length = n
deriving DecidableEq

namespace FixedBytes

variable {n : Nat}

def replicate (n : Nat) (byte : UInt8) : FixedBytes n := ⟨List.replicate n byte, by simp⟩

instance : Ord (FixedBytes n) := ⟨fun a b => compare a.bytes b.bytes⟩

instance : TransOrd (FixedBytes n) where
  eq_swap {a b} := OrientedOrd.eq_swap (a := a.bytes) (b := b.bytes)
  isLE_trans {a b c} := TransOrd.isLE_trans (a := a.bytes) (b := b.bytes) (c := c.bytes)

instance : LawfulEqOrd (FixedBytes n) where
  compare_self {a} := ReflOrd.compare_self (a := a.bytes)
  eq_of_compare {_ _} h := FixedBytes.ext (LawfulEqOrd.eq_of_compare h)

end FixedBytes

end TunnelProxy.Common
