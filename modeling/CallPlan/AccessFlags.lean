/-
Access flags of types and members, as the sixteen bits that class files store.
-/
namespace CallPlan

structure AccessFlags where
  bits : UInt16
deriving DecidableEq, Repr

namespace AccessFlags

def publicBit : AccessFlags := ⟨0x0001⟩
def privateBit : AccessFlags := ⟨0x0002⟩
def staticBit : AccessFlags := ⟨0x0008⟩
/-- shares its bit with a flag of fields, so it means a bridge on methods only -/
def bridgeBit : AccessFlags := ⟨0x0040⟩
def interfaceBit : AccessFlags := ⟨0x0200⟩
def abstractBit : AccessFlags := ⟨0x0400⟩
def syntheticBit : AccessFlags := ⟨0x1000⟩

/-- the flags of either -/
def union (a b : AccessFlags) : AccessFlags := ⟨a.bits ||| b.bits⟩

instance : Union AccessFlags := ⟨union⟩

/-- whether some bit of `flag` is set -/
def has (flags flag : AccessFlags) : Bool := flags.bits &&& flag.bits != 0

/-- the flags as four hexadecimal digits behind `0x` -/
def render (flags : AccessFlags) : String :=
  let digits := Nat.toDigits 16 flags.bits.toNat
  "0x" ++ String.ofList (List.replicate (4 - digits.length) '0' ++ digits)

end AccessFlags

end CallPlan
