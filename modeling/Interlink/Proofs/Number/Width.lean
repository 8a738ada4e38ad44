import Interlink.Number.Width

/-!
# Numbers that have a width

A number is given a width exactly if some word of that width stands for it, and
that word it is (`Width.fit?_eq_some`). So a number of some width gets its width
back. What is said here of all widths is then said of each in its own terms.
-/

namespace Interlink.Width

theorem fit?_eq_some {α : Type} (w : Width α) {n : Int} {a : α} :
    w.fit? n = some a ↔ w.toInt a = n := by
  unfold fit?
  split
  next h =>
    rw [Option.some.injEq]
    constructor
    · rintro rfl
      exact w.toInt_ofInt n h.1 h.2
    · rintro rfl
      exact w.ofInt_toInt a
  next h =>
    simp only [reduceCtorEq, false_iff]
    rintro rfl
    exact h ⟨w.low_le a, w.lt_high a⟩

theorem int8?_eq_some {n : Int} {k : Int8} : int8? n = some k ↔ k.toInt = n :=
  int8.fit?_eq_some

theorem int16?_eq_some {n : Int} {k : Int16} : int16? n = some k ↔ k.toInt = n :=
  int16.fit?_eq_some

theorem int32?_eq_some {n : Int} {k : Int32} : int32? n = some k ↔ k.toInt = n :=
  int32.fit?_eq_some

theorem int64?_eq_some {n : Int} {k : Int64} : int64? n = some k ↔ k.toInt = n :=
  int64.fit?_eq_some

theorem uint8?_eq_some {n : Int} {k : UInt8} : uint8? n = some k ↔ (k.toNat : Int) = n :=
  uint8.fit?_eq_some

end Interlink.Width
