import Mathlib.Algebra.Group.Nat.Defs
import Mathlib.Data.Nat.Notation

/-!
# Bytes of an address space

An address space has bytes at some of its addresses. A range of it can be read
when it has all the bytes of the range; addresses wrap around.
-/

namespace Dmsk

variable {w : ℕ} {memory : BitVec w → Option (BitVec 8)} {a : BitVec w} {bytes : List (BitVec 8)} {n : ℕ}

def bytesAt (memory : BitVec w → Option (BitVec 8)) : ℕ → BitVec w → Option (List (BitVec 8))
  | 0, _ => some []
  | n + 1, a => do
    let byte ← memory a
    let bytes ← bytesAt memory n (a + 1#w)
    some (byte :: bytes)

theorem bytesAt_succ_iff : bytesAt memory (n + 1) a = some bytes ↔
    ∃ byte rest, memory a = some byte ∧ bytesAt memory n (a + 1#w) = some rest ∧ byte :: rest = bytes := by
  simp [bytesAt, Option.bind_eq_some_iff]

theorem bytesAt_iff : bytesAt memory n a = some bytes ↔
    bytes.length = n ∧ ∀ i < n, memory (a + BitVec.ofNat w i) = bytes[i]? := by
  induction n generalizing a bytes with
  | zero =>
    rw [bytesAt, Option.some_inj, eq_comm, ← List.length_eq_zero_iff]
    simp
  | succ n ih =>
    rw [bytesAt_succ_iff]
    constructor
    · rintro ⟨byte, rest, hbyte, hrest, rfl⟩
      obtain ⟨hlength, hget⟩ := ih.mp hrest
      refine ⟨by simp [hlength], fun i hi => ?_⟩
      cases i with
      | zero => simpa using hbyte
      | succ i =>
        rw [List.getElem?_cons_succ, ← hget i (Nat.lt_of_succ_lt_succ hi), Nat.add_comm i 1, BitVec.ofNat_add,
          ← BitVec.add_assoc]
    · rintro ⟨hlength, hget⟩
      obtain ⟨byte, rest, rfl⟩ := List.exists_cons_of_length_eq_add_one hlength
      refine ⟨byte, rest, by simpa using hget 0 (Nat.succ_pos n), ih.mpr ⟨by simpa using hlength, fun i hi => ?_⟩, rfl⟩
      rw [BitVec.add_assoc, ← BitVec.ofNat_add, Nat.add_comm 1 i, hget (i + 1) (Nat.succ_lt_succ hi),
        List.getElem?_cons_succ]

/-- A part of what is read can also be read by itself. -/
theorem bytesAt_part (h : bytesAt memory n a = some bytes) {offset size : ℕ} (hpart : offset + size ≤ n) :
    bytesAt memory size (a + BitVec.ofNat w offset) = some ((bytes.drop offset).take size) := by
  obtain ⟨hlength, hget⟩ := bytesAt_iff.mp h
  refine bytesAt_iff.mpr ⟨by rw [List.length_take, List.length_drop]; omega, fun i hi => ?_⟩
  rw [BitVec.add_assoc, ← BitVec.ofNat_add, hget _ (by omega), List.getElem?_take_of_lt hi, List.getElem?_drop]

/-! ## Numbers, the lowest byte first -/

def littleEndian : List (BitVec 8) → ℕ
  | [] => 0
  | byte :: bytes => byte.toNat + 256 * littleEndian bytes

def numberAt (memory : BitVec w → Option (BitVec 8)) (size : ℕ) (a : BitVec w) : Option ℕ :=
  (bytesAt memory size a).map littleEndian

/-- The number in a field of a structure. -/
def field (offset size : ℕ) (bytes : List (BitVec 8)) : ℕ := littleEndian ((bytes.drop offset).take size)

/-- A field of a structure that has been read is the number where it lies. -/
theorem numberAt_field (h : bytesAt memory n a = some bytes) {offset size : ℕ} (hpart : offset + size ≤ n) :
    numberAt memory size (a + BitVec.ofNat w offset) = some (field offset size bytes) := by
  rw [numberAt, bytesAt_part h hpart, Option.map_some, field]

/-! ## Text in units of two bytes -/

def units : List (BitVec 8) → List (BitVec 16)
  | low :: high :: bytes => (high ++ low) :: units bytes
  | _ => []

def unitAt (memory : BitVec w → Option (BitVec 8)) (a : BitVec w) : Option (BitVec 16) := do
  let low ← memory a
  let high ← memory (a + 1#w)
  some (high ++ low)

theorem units_length : ∀ bytes : List (BitVec 8), (units bytes).length = bytes.length / 2
  | [] => rfl
  | [_] => by simp [units]
  | _ :: _ :: bytes => by
    rw [units, List.length_cons, units_length bytes, List.length_cons, List.length_cons]
    omega

theorem units_getElem? : ∀ (bytes : List (BitVec 8)) (i : ℕ), (units bytes)[i]? =
    bytes[2 * i]?.bind fun low => bytes[2 * i + 1]?.bind fun high => some (high ++ low)
  | [], i => by simp [units]
  | [_], i => by cases i <;> simp [units]
  | _ :: _ :: _, 0 => rfl
  | _ :: _ :: bytes, i + 1 => by
    rw [units, List.getElem?_cons_succ, units_getElem? bytes i]
    rfl

/-- The units of a text are those in memory, as far as the bytes have been read
from there. -/
theorem units_read (h : bytesAt memory n a = some bytes) (rest : List (BitVec 8)) {i : ℕ} (hi : i < n / 2) :
    (units (bytes ++ rest))[i]? = unitAt memory (a + BitVec.ofNat w (2 * i)) := by
  obtain ⟨hlength, hget⟩ := bytesAt_iff.mp h
  rw [units_getElem?, List.getElem?_append_left (by omega), List.getElem?_append_left (by omega), unitAt,
    hget _ (by omega), BitVec.add_assoc, ← BitVec.ofNat_add, hget _ (by omega)]
  rfl

end Dmsk
