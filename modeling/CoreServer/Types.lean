import Mathlib.Algebra.Ring.Int.Defs
import Mathlib.Algebra.Ring.Nat
import Mathlib.Data.Int.Order.Basic

/-!
# Machine integers and basic types (`core/Types.hpp`)

`Int32` values are integers.  Signed arithmetic that leaves the range has no defined
behaviour, so an `Int32` operation is partial: `add32` and `sub32` are `none` on overflow.
A conversion to a narrower or an unsigned type is defined and wraps round.
-/

namespace CoreServer

/-- `using Byte = uint8_t`. -/
abbrev Byte := UInt8

/-- `using SessionID = Int64`. -/
abbrev SessionID := BitVec 64

instance : LawfulBEq SessionID := inferInstance

/-- `using SocketFD = int`. -/
abbrev SocketFD := ℤ

/-- `const SocketFD sINVALID_SOCKET_FD = -1`. -/
def sINVALID_SOCKET_FD : SocketFD := -1

/-- `const Int32 sINVALID_ID = -1`. -/
def sINVALID_ID : ℤ := -1

/-- The values of `errno` that the server tells apart. -/
inductive Errno where
  | EAGAIN
  | EINTR
  | EPIPE
  | ECONNRESET
  | other (code : ℕ)
deriving DecidableEq, Repr

/-- The value `x`, or `none` when `x` is not an `Int32`. -/
def int32 (x : ℤ) : Option ℤ := if -2 ^ 31 ≤ x ∧ x < 2 ^ 31 then some x else none

/-- `Int32` addition. -/
def add32 (x y : ℤ) : Option ℤ := int32 (x + y)

/-- `Int32` subtraction. -/
def sub32 (x y : ℤ) : Option ℤ := int32 (x - y)

lemma int32_self {x : ℤ} (h : -2 ^ 31 ≤ x) (h' : x < 2 ^ 31) : int32 x = some x :=
  if_pos ⟨h, h'⟩

lemma add32_self {x y : ℤ} (h : -2 ^ 31 ≤ x + y) (h' : x + y < 2 ^ 31) :
    add32 x y = some (x + y) := int32_self h h'

lemma sub32_self {x y : ℤ} (h : -2 ^ 31 ≤ x - y) (h' : x - y < 2 ^ 31) :
    sub32 x y = some (x - y) := int32_self h h'

/-- The conversion of an integer value to `Int32`. -/
def toInt32 (x : ℤ) : ℤ := x.bmod (2 ^ 32)

/-- The conversion of an integer value to `size_t`. -/
def toSize (x : ℤ) : ℤ := x % 2 ^ 64

end CoreServer
