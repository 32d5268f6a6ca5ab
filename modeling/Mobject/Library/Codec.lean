import Mathlib.Data.List.Basic

/-! # Codecs

A codec writes a value as bytes and reads it back in front of any further bytes, so values written
in sequence are read in sequence. The second half builds codecs of the fixed-width binary format:
one byte for a truth value, little-endian words, a length before a text.
-/
namespace Codecs
set_option autoImplicit false

structure Codec (α : Type) where
  write : α → List UInt8
  read : List UInt8 → Option (α × List UInt8)
  read_write : ∀ value rest, read (write value ++ rest) = some (value, rest)

namespace Codec
variable {α β : Type}

theorem read_write_nil (c : Codec α) (value : α) : c.read (c.write value) = some (value, []) := by
  have h := c.read_write value []
  rwa [List.append_nil] at h

theorem write_injective (c : Codec α) : Function.Injective c.write := by
  intro x y hxy
  have hRead := c.read_write_nil x
  rw [hxy, c.read_write_nil y] at hRead
  exact (Prod.mk.inj (Option.some.inj hRead)).1.symm

def and (c : Codec α) (d : Codec β) : Codec (α × β) where
  write value := c.write value.1 ++ d.write value.2
  read bytes := (c.read bytes).bind fun first =>
    (d.read first.2).map fun second => ((first.1, second.1), second.2)
  read_write := by
    intro value rest
    rw [List.append_assoc, c.read_write]
    simp [d.read_write]

/-- The same bytes for a type that `make` builds from what the codec writes. -/
def build (c : Codec α) (make : α → β) (parts : β → α) (hMake : ∀ value, make (parts value) = value) :
    Codec β where
  write value := c.write (parts value)
  read bytes := (c.read bytes).map fun result => (make result.1, result.2)
  read_write := by
    intro value rest
    simp [c.read_write, hMake]

/-- A length, then that many bytes' worth of text or data. -/
def prefixed {γ : Nat → Type} (size : Codec Nat) (body : ∀ n, Codec (γ n)) : Codec ((n : Nat) × γ n) where
  write value := size.write value.1 ++ (body value.1).write value.2
  read bytes := (size.read bytes).bind fun length =>
    ((body length.1).read length.2).map fun result => (⟨length.1, result.1⟩, result.2)
  read_write := by
    intro value rest
    rw [List.append_assoc, size.read_write]
    simp [(body value.1).read_write]

end Codec

section Binary

def bool : Codec Bool where
  write value := [if value then 1 else 0]
  read
    | [] => none
    | head :: rest => some (head != 0, rest)
  read_write value rest := by cases value <;> rfl

/-- A block of exactly `n` bytes. -/
def block (n : Nat) : Codec (Vector UInt8 n) where
  write value := value.toList
  read bytes :=
    if h : n ≤ bytes.length then some (⟨(bytes.take n).toArray, by simp [h]⟩, bytes.drop n)
    else none
  read_write := by
    intro value rest
    obtain ⟨value, hSize⟩ := value
    have hLength : value.toList.length = n := hSize
    have hEnough : n ≤ (value.toList ++ rest).length := by simp [hLength]
    simp only [Vector.toList_mk]
    rw [dif_pos hEnough]
    simp [List.take_left' hLength, List.drop_left' hLength]

def capacity : Nat → Nat
  | 0 => 1
  | width + 1 => 256 * capacity width

/-- Little-endian: the least significant byte first. -/
def digits : Nat → Nat → List UInt8
  | 0, _ => []
  | width + 1, n => UInt8.ofNat n :: digits width (n / 256)

def readDigits : Nat → List UInt8 → Option (Nat × List UInt8)
  | 0, bytes => some (0, bytes)
  | _ + 1, [] => none
  | width + 1, head :: bytes =>
    (readDigits width bytes).map fun result => (head.toNat + 256 * result.1, result.2)

theorem readDigits_digits (width n : Nat) (hFits : n < capacity width) (rest : List UInt8) :
    readDigits width (digits width n ++ rest) = some (n, rest) := by
  induction width generalizing n with
  | zero =>
    have hZero : n = 0 := Nat.lt_one_iff.mp hFits
    rw [hZero]
    rfl
  | succ width ih =>
    have hRest : n / 256 < capacity width := Nat.div_lt_of_lt_mul hFits
    rw [digits, List.cons_append, readDigits, ih _ hRest]
    simp [Nat.mod_add_div]

def word32 : Codec UInt32 where
  write value := digits 4 value.toNat
  read bytes := (readDigits 4 bytes).map fun result => (UInt32.ofNat result.1, result.2)
  read_write := by
    intro value rest
    rw [readDigits_digits 4 value.toNat value.toNat_lt]
    simp

def int32 : Codec Int32 := word32.build UInt32.toInt32 Int32.toUInt32 Int32.toInt32_toUInt32

def marks : Nat → List UInt8
  | 0 => [0]
  | n + 1 => 1 :: marks n

def readMarks : List UInt8 → Option (Nat × List UInt8)
  | [] => none
  | head :: bytes =>
    if head = 0 then some (0, bytes) else (readMarks bytes).map fun result => (result.1 + 1, result.2)

theorem readMarks_marks (n : Nat) (rest : List UInt8) : readMarks (marks n ++ rest) = some (n, rest) := by
  induction n with
  | zero => rfl
  | succ n ih => simp [marks, readMarks, ih]

def unbounded : Nat := 18446744073709551615

theorem capacity_eight : capacity 8 = unbounded + 1 := by simp [capacity, unbounded]

/-- A length in eight bytes. Marks follow the largest word, so that there is no largest length. -/
def writeSize (n : Nat) : List UInt8 :=
  if n < unbounded then digits 8 n else digits 8 unbounded ++ marks (n - unbounded)

def readSize (bytes : List UInt8) : Option (Nat × List UInt8) :=
  (readDigits 8 bytes).bind fun result =>
    if result.1 < unbounded then some result
    else (readMarks result.2).map fun excess => (unbounded + excess.1, excess.2)

theorem readSize_writeSize (n : Nat) (rest : List UInt8) :
    readSize (writeSize n ++ rest) = some (n, rest) := by
  unfold readSize writeSize
  by_cases hSmall : n < unbounded
  · have hFits : n < capacity 8 := by rw [capacity_eight]; omega
    rw [if_pos hSmall, readDigits_digits 8 n hFits]
    simp [hSmall]
  · have hFits : unbounded < capacity 8 := by rw [capacity_eight]; omega
    rw [if_neg hSmall, List.append_assoc, readDigits_digits 8 unbounded hFits]
    have hExcess : unbounded + (n - unbounded) = n := by omega
    rw [Option.bind_some, if_neg (Nat.lt_irrefl _), readMarks_marks, Option.map_some, hExcess]

def size : Codec Nat := ⟨writeSize, readSize, readSize_writeSize⟩

/-- UTF-8, after its length. -/
def text : Codec String where
  write value := (size.prefixed block).write
    ⟨value.toByteArray.data.size, ⟨value.toByteArray.data, rfl⟩⟩
  read bytes := ((size.prefixed block).read bytes).bind fun result =>
    (String.fromUTF8? ⟨result.1.2.toArray⟩).map fun value => (value, result.2)
  read_write := by
    intro value rest
    rw [(size.prefixed block).read_write]
    have hValid : value.toByteArray.IsValidUTF8 := value.isValidUTF8
    simp [String.fromUTF8?, hValid, String.fromUTF8]

end Binary

end Codecs
