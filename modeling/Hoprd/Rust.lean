import Mathlib.Data.Rat.Defs
import Mathlib.Order.Basic
import Mathlib.Algebra.Order.Ring.Rat

/-!
# Rust values as the model reads them

Times are nanoseconds on naturals (`Duration`, `Instant`); an `f64` is its
mathematical value, with NaN and the infinities apart (`F64`), which is all that
comparisons and copies of it can see; addresses are their octets and port.
Strings are Lean's, both being sequences of Unicode scalar values.
-/
namespace Hoprd

abbrev Bytes := List UInt8

/-- `str::eq_ignore_ascii_case`. -/
def eqIgnoreAsciiCase (a b : String) : Bool :=
  a.toList.map Char.toLower == b.toList.map Char.toLower

/-- Nanoseconds. -/
abbrev Duration := Nat

/-- Nanoseconds on the monotonic clock. -/
abbrev Instant := Nat

def Duration.fromSecs (s : Nat) : Duration := s * 1000000000

def Duration.fromMillis (ms : Nat) : Duration := ms * 1000000

/-- An `f64` up to the sign of zero and the payload of NaN. -/
inductive F64 where
  | nan
  | infinity (negative : Bool)
  | finite (q : Rat)
  deriving DecidableEq, Repr

/-- `(0.0..=1.0).contains(&v)`. -/
def F64.inUnit : F64 → Bool
  | .finite q => decide (0 ≤ q) && decide (q ≤ 1)
  | _ => false

inductive IpAddr where
  | v4 (a b c d : UInt8)
  | v6 (segments : BitVec 128)
  deriving DecidableEq, Repr

def IpAddr.isIpv4 : IpAddr → Bool
  | .v4 .. => true
  | .v6 _ => false

/-- `127.0.0.0/8` and `::1`. -/
def IpAddr.isLoopback : IpAddr → Bool
  | .v4 a _ _ _ => a == 127
  | .v6 s => s == 1

structure SocketAddr where
  ip : IpAddr
  port : UInt16
  deriving DecidableEq, Repr

/-- Why `std::env::var` has no value. -/
inductive VarError where
  | notPresent
  | notUnicode
  deriving DecidableEq, Repr

/-- `std::env::var`. -/
abbrev Env := String → Except VarError String

end Hoprd
