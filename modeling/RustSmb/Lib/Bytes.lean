import Mathlib.Data.List.GetD
import Mathlib.Algebra.Order.Ring.Nat

/-!
# Byte strings

Little-endian fields of a byte string at a fixed offset, their encodings, and text in
UTF-16.  A field that reaches past the end reads as zero there; a format that must
reject such input checks the length first.

## Main definitions

* `Bytes`, `Bytes.slice` — byte strings and their parts.
* `Bytes.range?`, `Bytes.from?`, `Bytes.overwrite?` — parts that must exist.
* `Bytes.u8`, `Bytes.u16`, `Bytes.u32`, `Bytes.u64` — the field at an offset.
* `Bytes.ofU16`, `Bytes.ofU32`, `Bytes.ofU64` — the encodings.
* `Bytes.hex`, `Bytes.unhex` — the hexadecimal text of a byte string, and back.
* `Utf16.decodeLossy`, `Utf16.encode` — text from and to UTF-16 code units.

## Main results

* `Utf16.decode_units_bytes` — a text in UTF-16 is read back.
-/

abbrev Bytes : Type := List UInt8

namespace Bytes

open Nat List

/-- `n` bytes from `off` on, or as many as there are. -/
def slice (b : Bytes) (off n : ℕ) : Bytes := (b.drop off).take n

/-- Rust's `get(lo..hi)`. -/
def range? (b : Bytes) (lo hi : ℕ) : Option Bytes :=
  if lo ≤ hi ∧ hi ≤ b.length then some (b.slice lo (hi - lo)) else none

/-- Rust's `get(lo..)`. -/
def from? (b : Bytes) (lo : ℕ) : Option Bytes :=
  if lo ≤ b.length then some (b.drop lo) else none

/-- The number that `n` bytes from `off` on encode, least significant byte first. -/
def leNat (b : Bytes) (off : ℕ) : ℕ → ℕ
  | 0 => 0
  | n + 1 => (b.getD off 0).toNat + 256 * leNat b (off + 1) n

/-- The `n` least significant bytes of a number, least significant first. -/
def ofLeNat : ℕ → ℕ → Bytes
  | 0, _ => []
  | n + 1, v => UInt8.ofNat v :: ofLeNat n (v / 256)

def u8 (b : Bytes) (off : ℕ) : UInt8 := b.getD off 0

def u16 (b : Bytes) (off : ℕ) : UInt16 := UInt16.ofNat (leNat b off 2)

def u32 (b : Bytes) (off : ℕ) : UInt32 := UInt32.ofNat (leNat b off 4)

def u64 (b : Bytes) (off : ℕ) : UInt64 := UInt64.ofNat (leNat b off 8)

def ofU16 (v : UInt16) : Bytes := ofLeNat 2 v.toNat

def ofU32 (v : UInt32) : Bytes := ofLeNat 4 v.toNat

def ofU64 (v : UInt64) : Bytes := ofLeNat 8 v.toNat

/-- Padding. -/
def zeros (n : ℕ) : Bytes := List.replicate n 0

/-- Replace the bytes from `off` on by `d`; the rest stays. -/
def splice (b : Bytes) (off : ℕ) (d : Bytes) : Bytes :=
  b.take off ++ d ++ b.drop (off + d.length)

/-- Rust's `copy_from_slice` into a range; it panics unless the lengths agree. -/
def overwrite? (b : Bytes) (lo hi : ℕ) (d : Bytes) : Option Bytes :=
  if lo ≤ hi ∧ hi ≤ b.length ∧ d.length = hi - lo then some (b.splice lo d) else none

/-! ### Fields of changed byte strings -/

@[simp]
theorem length_ofLeNat (n v : ℕ) : (ofLeNat n v).length = n := by
  induction n generalizing v with
  | zero => rfl
  | succ n ih => simp [ofLeNat, ih]

@[simp]
theorem length_ofU16 (v : UInt16) : (ofU16 v).length = 2 := length_ofLeNat 2 _

@[simp]
theorem length_ofU32 (v : UInt32) : (ofU32 v).length = 4 := length_ofLeNat 4 _

@[simp]
theorem length_ofU64 (v : UInt64) : (ofU64 v).length = 8 := length_ofLeNat 8 _

@[simp]
theorem length_zeros (n : ℕ) : (zeros n).length = n := length_replicate

variable {b b' : Bytes} {off n o : ℕ}

theorem ext_getD (hlen : b.length = b'.length) (h : ∀ i < b.length, b.getD i 0 = b'.getD i 0) :
    b = b' := by
  refine ext_getElem hlen fun i hi hi' => ?_
  have := h i hi
  rwa [getD_eq_getElem _ _ hi, getD_eq_getElem _ _ hi'] at this

theorem leNat_congr {off' : ℕ} (h : ∀ i < n, b.getD (off + i) 0 = b'.getD (off' + i) 0) :
    leNat b off n = leNat b' off' n := by
  induction n generalizing off off' with
  | zero => rfl
  | succ n ih =>
    have hrest : leNat b (off + 1) n = leNat b' (off' + 1) n := by
      refine ih fun i hi => ?_
      have := h (i + 1) (by omega)
      rwa [show off + (i + 1) = off + 1 + i by omega,
        show off' + (i + 1) = off' + 1 + i by omega] at this
    rw [leNat, leNat, hrest, show b.getD off 0 = b'.getD off' 0 from h 0 (by omega)]

theorem leNat_lt (b : Bytes) (off n : ℕ) : leNat b off n < 256 ^ n := by
  induction n generalizing off with
  | zero => simp [leNat]
  | succ n ih =>
    have hfirst := (b.getD off 0).toNat_lt
    have hrest := ih (off + 1)
    rw [leNat, pow_succ]
    omega

theorem leNat_cons (x : UInt8) (b : Bytes) (off n : ℕ) :
    leNat (x :: b) (off + 1) n = leNat b off n :=
  leNat_congr fun i _ => by rw [show off + 1 + i = off + i + 1 by omega, getD_cons_succ]

theorem leNat_ofLeNat (n v : ℕ) : leNat (ofLeNat n v) 0 n = v % 256 ^ n := by
  induction n generalizing v with
  | zero => simp [leNat, mod_one]
  | succ n ih =>
    rw [ofLeNat, leNat, leNat_cons, ih, getD_cons_zero, pow_succ', mod_mul]
    rfl

variable (c : Bytes)

theorem leNat_append_left (h : off + n ≤ b.length) : leNat (b ++ c) off n = leNat b off n :=
  leNat_congr fun i hi => getD_append b c 0 (off + i) (by omega)

theorem leNat_append_right (b c : Bytes) (off n : ℕ) :
    leNat (b ++ c) (b.length + off) n = leNat c off n := by
  refine leNat_congr fun i _ => ?_
  rw [getD_append_right b c 0 (b.length + off + i) (by omega)]
  congr 1
  omega

theorem leNat_append_of_le (h : b.length ≤ off) (n : ℕ) :
    leNat (b ++ c) off n = leNat c (off - b.length) n := by
  rw [← leNat_append_right b c, Nat.add_sub_cancel' h]

theorem u16_append_of_le (h : b.length ≤ o) : (b ++ c).u16 o = c.u16 (o - b.length) := by
  rw [u16, u16, leNat_append_of_le c h]

theorem u32_append_of_le (h : b.length ≤ o) : (b ++ c).u32 o = c.u32 (o - b.length) := by
  rw [u32, u32, leNat_append_of_le c h]

theorem u64_append_of_le (h : b.length ≤ o) : (b ++ c).u64 o = c.u64 (o - b.length) := by
  rw [u64, u64, leNat_append_of_le c h]

theorem leNat_ofLeNat_append (n v : ℕ) (c : Bytes) :
    leNat (ofLeNat n v ++ c) 0 n = v % 256 ^ n := by
  rw [leNat_append_left c (by simp), leNat_ofLeNat]

theorem u16_ofU16_append (v : UInt16) (c : Bytes) : u16 (ofU16 v ++ c) 0 = v := by
  have hlt : v.toNat < 256 ^ 2 := v.toNat_lt
  rw [u16, ofU16, leNat_ofLeNat_append, mod_eq_of_lt hlt, UInt16.ofNat_toNat]

theorem u32_ofU32_append (v : UInt32) (c : Bytes) : u32 (ofU32 v ++ c) 0 = v := by
  have hlt : v.toNat < 256 ^ 4 := v.toNat_lt
  rw [u32, ofU32, leNat_ofLeNat_append, mod_eq_of_lt hlt, UInt32.ofNat_toNat]

theorem u64_ofU64_append (v : UInt64) (c : Bytes) : u64 (ofU64 v ++ c) 0 = v := by
  have hlt : v.toNat < 256 ^ 8 := v.toNat_lt
  rw [u64, ofU64, leNat_ofLeNat_append, mod_eq_of_lt hlt, UInt64.ofNat_toNat]

theorem getD_drop (b : Bytes) (k i : ℕ) : (b.drop k).getD i 0 = b.getD (k + i) 0 := by
  simp [getD_eq_getElem?_getD]

theorem u64_congr (h : ∀ i < 8, b.getD (o + i) 0 = b'.getD (o + i) 0) : b.u64 o = b'.u64 o := by
  rw [u64, u64, leNat_congr h]

theorem ofLeNat_leNat (h : off + n ≤ b.length) : ofLeNat n (leNat b off n) = b.slice off n := by
  induction n generalizing off with
  | zero => simp [ofLeNat, slice]
  | succ n ih =>
    have hlt : off < b.length := by omega
    have hrest := ih (show off + 1 + n ≤ b.length by omega)
    have hbyte : (b[off].toNat + 256 * leNat b (off + 1) n) / 256 = leNat b (off + 1) n := by
      have := b[off].toNat_lt
      omega
    have hlow : UInt8.ofNat (b[off].toNat + 256 * leNat b (off + 1) n) = b[off] := by
      apply UInt8.toNat.inj
      rw [UInt8.toNat_ofNat', add_mul_mod_self_left, mod_eq_of_lt b[off].toNat_lt]
    rw [leNat, ofLeNat, getD_eq_getElem _ _ hlt, hbyte, hlow, hrest]
    simp only [slice]
    rw [drop_eq_getElem_cons hlt, take_succ_cons]

theorem ofU64_u64 (h : o + 8 ≤ b.length) : ofU64 (b.u64 o) = b.slice o 8 := by
  have hlt : leNat b o 8 < 2 ^ 64 := leNat_lt b o 8
  rw [u64, ofU64, UInt64.toNat_ofNat_of_lt' hlt, ofLeNat_leNat h]

theorem ofU16_u16 (h : o + 2 ≤ b.length) : ofU16 (b.u16 o) = b.slice o 2 := by
  have hlt : leNat b o 2 < 2 ^ 16 := leNat_lt b o 2
  rw [u16, ofU16, UInt16.toNat_ofNat_of_lt' hlt, ofLeNat_leNat h]

theorem ofU32_u32 (h : o + 4 ≤ b.length) : ofU32 (b.u32 o) = b.slice o 4 := by
  have hlt : leNat b o 4 < 2 ^ 32 := leNat_lt b o 4
  rw [u32, ofU32, UInt32.toNat_ofNat_of_lt' hlt, ofLeNat_leNat h]

theorem leNat_drop (b : Bytes) (k o n : ℕ) : leNat (b.drop k) o n = leNat b (k + o) n :=
  leNat_congr fun i _ => by rw [getD_drop, add_assoc]

theorem u16_drop (b : Bytes) (k o : ℕ) : u16 (b.drop k) o = b.u16 (k + o) := by
  rw [u16, u16, leNat_drop]

theorem u64_drop (b : Bytes) (k o : ℕ) : u64 (b.drop k) o = b.u64 (k + o) := by
  rw [u64, u64, leNat_drop]

theorem leNat_slice {k : ℕ} (h : k ≤ n) : leNat (b.slice o n) 0 k = leNat b o k := by
  refine leNat_congr fun i hi => ?_
  rw [slice, getD_eq_getElem?_getD, getElem?_take_of_lt (by omega),
    ← getD_eq_getElem?_getD, getD_drop, zero_add]

theorem u16_slice (h : 2 ≤ n) : (b.slice o n).u16 0 = b.u16 o := by
  rw [u16, u16, leNat_slice h]

theorem u32_slice (h : 4 ≤ n) : (b.slice o n).u32 0 = b.u32 o := by
  rw [u32, u32, leNat_slice h]

theorem u64_slice (h : 8 ≤ n) : (b.slice o n).u64 0 = b.u64 o := by
  rw [u64, u64, leNat_slice h]

theorem range?_eq_some {lo hi : ℕ} (h : lo ≤ hi) (hb : hi ≤ b.length) :
    b.range? lo hi = some (b.slice lo (hi - lo)) := if_pos ⟨h, hb⟩

theorem from?_eq_some {lo : ℕ} (h : lo ≤ b.length) :
    b.from? lo = some (b.drop lo) := if_pos h

section Splice

variable {b d : Bytes} {off : ℕ}

@[simp]
theorem length_splice (h : off + d.length ≤ b.length) : (b.splice off d).length = b.length := by
  simp only [splice, length_append, length_take, length_drop]
  omega

variable {n o : ℕ}

theorem splice_slice (h : off + n ≤ b.length) : b.splice off (b.slice off n) = b := by
  have hlen : (b.slice off n).length = n := by
    rw [slice, length_take_of_le (by rw [length_drop]; omega)]
  rw [splice, hlen, slice, append_assoc, ← drop_drop, take_append_drop, take_append_drop]

theorem drop_splice {k : ℕ} (h : k + off ≤ b.length) :
    (b.splice (k + off) d).drop k = Bytes.splice (b.drop k) off d := by
  have htake : k ≤ (b.take (k + off)).length := by rw [length_take_of_le h]; omega
  rw [splice, splice, append_assoc, drop_append_of_le_length htake, drop_take,
    Nat.add_sub_cancel_left, drop_drop, append_assoc, Nat.add_assoc]

theorem getD_splice_of_outside (h : off + d.length ≤ b.length) {i : ℕ}
    (hi : i < off ∨ off + d.length ≤ i) : (b.splice off d).getD i 0 = b.getD i 0 := by
  have htake : (b.take off).length = off := length_take_of_le (by omega)
  unfold splice
  rcases hi with hi | hi
  · rw [append_assoc, getD_append _ _ _ _ (by omega)]
    simp [getD_eq_getElem?_getD, hi]
  · rw [getD_append_right _ _ _ _ (by rw [length_append]; omega), length_append, htake]
    simp only [getD_eq_getElem?_getD, getElem?_drop]
    congr 2
    omega

theorem getD_splice_of_inside (h : off ≤ b.length) {i : ℕ} (hi : i < d.length) :
    (b.splice off d).getD (off + i) 0 = d.getD i 0 := by
  have htake : (b.take off).length = off := length_take_of_le h
  unfold splice
  rw [getD_append _ _ _ _ (by rw [length_append]; omega),
    getD_append_right _ _ _ _ (by omega), htake]
  congr 1
  omega

theorem leNat_splice_of_outside (h : off + d.length ≤ b.length)
    (ho : o + n ≤ off ∨ off + d.length ≤ o) : leNat (b.splice off d) o n = leNat b o n :=
  leNat_congr fun _ _ => getD_splice_of_outside h (by omega)

theorem overwrite?_eq_some (hd : d.length = n) (h : off + n ≤ b.length) :
    b.overwrite? off (off + n) d = some (b.splice off d) :=
  if_pos ⟨by omega, h, by omega⟩

theorem splice_splice (e : Bytes) (h : off + d.length ≤ b.length) :
    (b.splice off d).splice (off + d.length) e = b.splice off (d ++ e) := by
  have htake : (b.take off ++ d).length = off + d.length := by
    rw [length_append, length_take_of_le (by omega)]
  rw [splice, splice, take_left' htake, ← drop_drop, drop_left' htake,
    drop_drop, splice, length_append, ← add_assoc]
  simp only [append_assoc]

theorem u32_splice_of_outside (h : off + d.length ≤ b.length)
    (ho : o + 4 ≤ off ∨ off + d.length ≤ o) : (b.splice off d).u32 o = b.u32 o := by
  rw [u32, u32, leNat_splice_of_outside h ho]

theorem u32_splice_self (h : off ≤ b.length) (v : UInt32) :
    (b.splice off (ofU32 v)).u32 off = v := by
  have hlt : v.toNat < 256 ^ 4 := v.toNat_lt
  have hfield : leNat (b.splice off (ofU32 v)) off 4 = v.toNat := by
    rw [← mod_eq_of_lt hlt, ← leNat_ofLeNat]
    refine leNat_congr fun i hi => ?_
    rw [ofU32, getD_splice_of_inside h (by simpa using hi), zero_add]
  rw [u32, hfield, UInt32.ofNat_toNat]

theorem u32_append_left (c : Bytes) (h : o + 4 ≤ b.length) : (b ++ c).u32 o = b.u32 o := by
  rw [u32, u32, leNat_append_left c h]

theorem u32_append_right (c : Bytes) (o : ℕ) : (b ++ c).u32 (b.length + o) = c.u32 o := by
  rw [u32, u32, leNat_append_right]

theorem u64_append_left (c : Bytes) (h : o + 8 ≤ b.length) : (b ++ c).u64 o = b.u64 o := by
  rw [u64, u64, leNat_append_left c h]

end Splice

/-! ### Hexadecimal text -/

def hexDigit (n : ℕ) : Char :=
  if n < 10 then Char.ofNat (48 + n) else Char.ofNat (87 + n)

/-- The lower-case hexadecimal text of a byte string. -/
def hex (b : Bytes) : String :=
  String.ofList (b.flatMap fun x => [hexDigit (x.toNat / 16), hexDigit (x.toNat % 16)])

def unhexDigit (c : Char) : Option ℕ :=
  if '0' ≤ c ∧ c ≤ '9' then some (c.toNat - 48)
  else if 'a' ≤ c ∧ c ≤ 'f' then some (c.toNat - 87)
  else if 'A' ≤ c ∧ c ≤ 'F' then some (c.toNat - 55)
  else none

/-- The bytes that pairs of hexadecimal digits stand for. -/
def unhexChars : List Char → Option Bytes
  | [] => some []
  | [_] => none
  | a :: b :: cs => do
      let hi ← unhexDigit a
      let lo ← unhexDigit b
      let rest ← unhexChars cs
      some (UInt8.ofNat (16 * hi + lo) :: rest)

/-- Lower and upper case digits, an even number of them. -/
def unhex (s : String) : Option Bytes := unhexChars s.toList

end Bytes

namespace Utf16

/-- The 16-bit code units of a byte string; an odd byte at the end is dropped. -/
def units : Bytes → List UInt16
  | lo :: hi :: rest => UInt16.ofNat (lo.toNat + 256 * hi.toNat) :: units rest
  | _ => []

/-- Is this code unit the first half of a surrogate pair? -/
def isHigh (u : UInt16) : Bool := 0xD800 ≤ u && u ≤ 0xDBFF

/-- Is this code unit the second half of a surrogate pair? -/
def isLow (u : UInt16) : Bool := 0xDC00 ≤ u && u ≤ 0xDFFF

/-- The character of a surrogate pair. -/
def pair (hi lo : UInt16) : Char :=
  Char.ofNat (0x10000 + (hi.toNat - 0xD800) * 0x400 + (lo.toNat - 0xDC00))

/-- The characters of a sequence of code units; `none` marks an unpaired surrogate. -/
def decodeUnits : List UInt16 → List (Option Char)
  | [] => []
  | [u] => [if isHigh u || isLow u then none else some (Char.ofNat u.toNat)]
  | u :: v :: rest =>
      if isHigh u && isLow v then some (pair u v) :: decodeUnits rest
      else (if isHigh u || isLow u then none else some (Char.ofNat u.toNat))
        :: decodeUnits (v :: rest)

/-- The text of a sequence of code units, with the replacement character for each unpaired
surrogate. -/
def decodeLossy (us : List UInt16) : String :=
  String.ofList ((decodeUnits us).map fun c => c.getD (Char.ofNat 0xFFFD))

/-- The text of a sequence of code units, if it has no unpaired surrogate. -/
def decode (us : List UInt16) : Option String :=
  (decodeUnits us).mapM id |>.map String.ofList

/-- One unit, or a surrogate pair. -/
def encodeChar (c : Char) : List UInt16 :=
  let n := c.toNat
  if n < 0x10000 then [UInt16.ofNat n]
  else [UInt16.ofNat (0xD800 + (n - 0x10000) / 0x400),
    UInt16.ofNat (0xDC00 + (n - 0x10000) % 0x400)]

def encode (s : String) : List UInt16 := s.toList.flatMap encodeChar

/-- The little-endian bytes of a text in UTF-16. -/
def bytes (s : String) : Bytes := (encode s).flatMap Bytes.ofU16

theorem units_ofU16_append (u : UInt16) (b : Bytes) :
    units (Bytes.ofU16 u ++ b) = u :: units b := by
  have hlt := u.toNat_lt
  have hvalue : (UInt8.ofNat u.toNat).toNat + 256 * (UInt8.ofNat (u.toNat / 256)).toNat =
      u.toNat := by
    rw [UInt8.toNat_ofNat', UInt8.toNat_ofNat']
    omega
  change UInt16.ofNat _ :: units b = _
  rw [hvalue, UInt16.ofNat_toNat]

theorem isHigh_iff {u : UInt16} : isHigh u = true ↔ 0xD800 ≤ u.toNat ∧ u.toNat ≤ 0xDBFF := by
  simp [isHigh, UInt16.le_iff_toNat_le]

theorem isLow_iff {u : UInt16} : isLow u = true ↔ 0xDC00 ≤ u.toNat ∧ u.toNat ≤ 0xDFFF := by
  simp [isLow, UInt16.le_iff_toNat_le]

theorem decodeUnits_encodeChar_append (c : Char) (us : List UInt16) :
    decodeUnits (encodeChar c ++ us) = some c :: decodeUnits us := by
  have hvalid : c.toNat < 0xD800 ∨ 0xDFFF < c.toNat ∧ c.toNat < 0x110000 := c.valid
  have htoNat : ∀ n < 0x10000, (UInt16.ofNat n).toNat = n := fun n => UInt16.toNat_ofNat_of_lt'
  unfold encodeChar
  dsimp only
  split
  · -- a code unit that is no surrogate
    have hunit := htoNat c.toNat ‹_›
    have hhigh : ¬ isHigh (UInt16.ofNat c.toNat) = true := by rw [isHigh_iff]; omega
    have hlow : ¬ isLow (UInt16.ofNat c.toNat) = true := by rw [isLow_iff]; omega
    cases us <;> simp [decodeUnits, hhigh, hlow, hunit]
  · have hhi := htoNat (0xD800 + (c.toNat - 0x10000) / 0x400) (by omega)
    have hlo := htoNat (0xDC00 + (c.toNat - 0x10000) % 0x400) (by omega)
    rw [List.cons_append, List.cons_append, List.nil_append, decodeUnits,
      isHigh_iff.2 (by omega), isLow_iff.2 (by omega), pair, hhi, hlo,
      show 0x10000 + (0xD800 + (c.toNat - 0x10000) / 0x400 - 0xD800) * 0x400 +
        (0xDC00 + (c.toNat - 0x10000) % 0x400 - 0xDC00) = c.toNat by omega, Char.ofNat_toNat]
    rfl

/-- **A text in UTF-16 is read back.** -/
theorem decode_units_bytes (s : String) : decode (units (bytes s)) = some s := by
  have hunits : ∀ us : List UInt16, units (us.flatMap Bytes.ofU16) = us := by
    intro us
    induction us with
    | nil => rfl
    | cons u us ih => rw [List.flatMap_cons, units_ofU16_append, ih]
  have hdec : ∀ cs : List Char, (decodeUnits (cs.flatMap encodeChar)).mapM id = some cs := by
    intro cs
    induction cs with
    | nil => rfl
    | cons c cs ih => simp [decodeUnits_encodeChar_append, ih]
  rw [decode, bytes, encode, hunits, hdec, Option.map_some, String.ofList_toList]

end Utf16
