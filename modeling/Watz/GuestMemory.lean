import Watz.Base.Layout

namespace Watz

open Base Base.Layout

def UINT32_MAX : Nat := 2 ^ 32 - 1
def MAX_LINEAR_MEMORY_SIZE : Nat := 4 * 2 ^ 30

-- The default memory of a guest with 32-bit addresses.
structure GuestMemory where
  size : Nat
  data : Mem
  size_le : size ≤ MAX_LINEAR_MEMORY_SIZE

namespace GuestMemory

variable (m : GuestMemory)

-- `wasm_runtime_validate_app_addr`.
def validateAppAddr (appOffset size : Nat) : Bool :=
  decide (size ≤ MAX_LINEAR_MEMORY_SIZE ∧ appOffset ≤ MAX_LINEAR_MEMORY_SIZE - size ∧
    appOffset + size ≤ m.size)

-- `wasm_runtime_validate_native_addr` of the address that belongs to this offset.
def validateNativeAddr (appOffset size : Nat) : Bool :=
  decide (size ≤ MAX_LINEAR_MEMORY_SIZE ∧ appOffset + size ≤ m.size)

def readUint32 (appOffset : Nat) : Nat := leNat (slice m.data appOffset 4)

-- The length of the string at this offset, if it ends inside the memory.
def strlen (appOffset : Nat) : Option Nat :=
  (List.range (m.size - appOffset)).find? fun i => m.data (appOffset + i) == 0

-- `wasm_runtime_validate_app_str_addr`.
def validateAppStrAddr (appStrOffset : Nat) : Bool :=
  decide (appStrOffset < m.size ∧ appStrOffset < MAX_LINEAR_MEMORY_SIZE ∧
    m.size ≤ MAX_LINEAR_MEMORY_SIZE) && (m.strlen appStrOffset).isSome

-- `wasm_runtime_addr_app_to_native`, as an offset. There is none for NULL.
def addrAppToNative (appOffset : Nat) : Option Nat :=
  if appOffset < m.size then some appOffset else none

-- The characters `i`, `$`, `*` and `~` of a signature.
inductive Param where
  | int
  | string
  | pointer
  | length
  deriving DecidableEq, Repr

-- The checks that `wasm_runtime_invoke_native` makes before it calls the function.
def checkArguments : List Param → List Nat → Bool
  | .pointer :: .length :: signature, arg :: len :: args =>
      m.validateAppAddr arg len && checkArguments (.length :: signature) (len :: args)
  | .pointer :: signature, arg :: args => m.validateAppAddr arg 1 && checkArguments signature args
  | .string :: signature, arg :: args => m.validateAppStrAddr arg && checkArguments signature args
  | _ :: signature, _ :: args => checkArguments signature args
  | _, _ => true

theorem validateAppAddr_iff (appOffset size : Nat) :
    m.validateAppAddr appOffset size = true ↔ appOffset + size ≤ m.size := by
  have hsize := m.size_le
  simp only [validateAppAddr, decide_eq_true_eq]
  omega

theorem validateNativeAddr_iff (appOffset size : Nat) :
    m.validateNativeAddr appOffset size = true ↔ appOffset + size ≤ m.size := by
  have hsize := m.size_le
  simp only [validateNativeAddr, decide_eq_true_eq]
  omega

theorem addrAppToNative_of_lt {appOffset : Nat} (h : appOffset < m.size) :
    m.addrAppToNative appOffset = some appOffset := if_pos h

end GuestMemory

end Watz
