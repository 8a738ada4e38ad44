/-!
# Whole numbers of a width

Fields, ids and constants hold whole numbers of eight to sixty-four bits. A
number read from a text or a payload has no width yet; it is given one here,
or refused when it is out of range. Nothing is ever cut off.

A `Width` is a type of words together with the range of numbers that they stand
for, and `Width.fit?` gives a number that width. The widths that are needed are
signed ones of eight, sixteen, thirty-two and sixty-four bits, and unsigned ones
of eight, thirty-two and sixty-four.
-/

namespace Interlink

/-- **A width**: the words of a type stand for the whole numbers of a range, one
for each. -/
structure Width (α : Type) where
  /-- The least number. -/
  low : Int
  /-- The number after the greatest. -/
  high : Int
  /-- The word for a number. -/
  ofInt : Int → α
  /-- The number that a word stands for. -/
  toInt : α → Int
  low_le : ∀ a, low ≤ toInt a
  lt_high : ∀ a, toInt a < high
  ofInt_toInt : ∀ a, ofInt (toInt a) = a
  toInt_ofInt : ∀ n, low ≤ n → n < high → toInt (ofInt n) = n

namespace Width

/-- **The word for a number**, if it is in range. -/
def fit? {α : Type} (w : Width α) (n : Int) : Option α :=
  if w.low ≤ n ∧ n < w.high then some (w.ofInt n) else none

/-! ## Signed numbers -/

def int8 : Width Int8 where
  low := -0x80
  high := 0x80
  ofInt := Int8.ofInt
  toInt := Int8.toInt
  low_le := Int8.le_toInt
  lt_high := Int8.toInt_lt
  ofInt_toInt := Int8.ofInt_toInt
  toInt_ofInt _ := Int8.toInt_ofInt_of_le

def int16 : Width Int16 where
  low := -0x8000
  high := 0x8000
  ofInt := Int16.ofInt
  toInt := Int16.toInt
  low_le := Int16.le_toInt
  lt_high := Int16.toInt_lt
  ofInt_toInt := Int16.ofInt_toInt
  toInt_ofInt _ := Int16.toInt_ofInt_of_le

def int32 : Width Int32 where
  low := -0x80000000
  high := 0x80000000
  ofInt := Int32.ofInt
  toInt := Int32.toInt
  low_le := Int32.le_toInt
  lt_high := Int32.toInt_lt
  ofInt_toInt := Int32.ofInt_toInt
  toInt_ofInt _ := Int32.toInt_ofInt_of_le

def int64 : Width Int64 where
  low := -0x8000000000000000
  high := 0x8000000000000000
  ofInt := Int64.ofInt
  toInt := Int64.toInt
  low_le := Int64.le_toInt
  lt_high := Int64.toInt_lt
  ofInt_toInt := Int64.ofInt_toInt
  toInt_ofInt _ := Int64.toInt_ofInt_of_le

def int8? : Int → Option Int8 := int8.fit?

def int16? : Int → Option Int16 := int16.fit?

def int32? : Int → Option Int32 := int32.fit?

def int64? : Int → Option Int64 := int64.fit?

/-! ## Unsigned numbers -/

/-- The width of words that stand for natural numbers. -/
def unsigned {α : Type} (high : Nat) (ofNat : Nat → α) (toNat : α → Nat)
    (lt_high : ∀ a, toNat a < high) (ofNat_toNat : ∀ a, ofNat (toNat a) = a)
    (toNat_ofNat : ∀ n < high, toNat (ofNat n) = n) : Width α where
  low := 0
  high := high
  ofInt n := ofNat n.toNat
  toInt a := toNat a
  low_le a := Int.natCast_nonneg (toNat a)
  lt_high a := Int.ofNat_lt.mpr (lt_high a)
  ofInt_toInt a := ofNat_toNat a
  toInt_ofInt n hlow hhigh := by
    rw [toNat_ofNat n.toNat (by omega)]
    exact Int.toNat_of_nonneg hlow

def uint8 : Width UInt8 :=
  unsigned 0x100 UInt8.ofNat UInt8.toNat UInt8.toNat_lt
    (fun _ => UInt8.ofNat_toNat) (fun _ => UInt8.toNat_ofNat_of_lt)

def uint32 : Width UInt32 :=
  unsigned 0x100000000 UInt32.ofNat UInt32.toNat UInt32.toNat_lt
    (fun _ => UInt32.ofNat_toNat) (fun _ => UInt32.toNat_ofNat_of_lt)

def uint64 : Width UInt64 :=
  unsigned 0x10000000000000000 UInt64.ofNat UInt64.toNat UInt64.toNat_lt
    (fun _ => UInt64.ofNat_toNat) (fun _ => UInt64.toNat_ofNat_of_lt)

def uint8? : Int → Option UInt8 := uint8.fit?

def uint64? : Int → Option UInt64 := uint64.fit?

end Width

end Interlink
