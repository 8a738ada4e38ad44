import Mathlib.Data.List.Basic
import Interlink.MessagePack.Head

/-!
# Reading what was written

A reader **reads** a value from some bytes (`Reads`) if it takes exactly these
bytes from the front of whatever they are the front of, and makes nothing of
fewer of them. Where a reader has a limit, that holds under a condition, and it
fails if the condition does not hold. Readers that follow one another read what
stands one behind the other (`Reads.bind`), which is all that is needed to
follow a reader through what was written for it.

A head that fits its form (`Head.Fits`) is read from its written form
(`Head.reads_read`), whichever of the forms that is.
-/

namespace Interlink.MessagePack

/-! ## Readers -/

/-- **A reader reads a value from some bytes**, provided that something holds:
it leaves all bytes behind them alone, and needs every one of them. -/
structure Reads {α : Type} (x : Reader α) (bytes : List UInt8) (provided : Prop)
    (a : α) : Prop where
  /-- The value is read, whatever follows. -/
  whole : provided → ∀ rest, x (bytes ++ rest) = some (a, rest)
  /-- Otherwise nothing is read. -/
  refused : ¬ provided → ∀ rest, x (bytes ++ rest) = none
  /-- Nothing is read from fewer bytes. -/
  cut : ∀ front, front <+: bytes → front ≠ bytes → x front = none

namespace Reads

variable {α β : Type} {x : Reader α} {bytes : List UInt8} {p q : Prop} {a : α}

theorem congr (h : Reads x bytes p a) (hpq : p ↔ q) : Reads x bytes q a := by
  rw [← hpq]
  exact h

theorem pure (a : α) : Reads (Pure.pure a) [] True a where
  whole _ _ := rfl
  refused hfalse := absurd trivial hfalse
  cut _ hfront hne := absurd (List.prefix_nil.mp hfront) hne

/-- A reader that fails reads nothing from anything. -/
theorem failure (bytes : List UInt8) (a : α) :
    Reads (Alternative.failure) bytes False a where
  whole hfalse := absurd hfalse not_false
  refused _ _ := rfl
  cut _ _ _ := rfl

/-- **What stands one behind the other** is read by readers that follow one
another. -/
theorem bind {f : α → Reader β} {more : List UInt8} {b : β}
    (hx : Reads x bytes p a) (hf : p → Reads (f a) more q b) :
    Reads (x >>= f) (bytes ++ more) (p ∧ q) b := by
  have hpass : ∀ rest, p → (x >>= f) (bytes ++ rest) = f a rest := by
    intro rest hp
    show (x (bytes ++ rest)).bind (fun y => f y.1 y.2) = _
    rw [hx.whole hp]
    rfl
  have hstop : ∀ rest, ¬ p → (x >>= f) (bytes ++ rest) = none := by
    intro rest hp
    show (x (bytes ++ rest)).bind (fun y => f y.1 y.2) = _
    rw [hx.refused hp]
    rfl
  refine ⟨fun hpq rest => ?_, fun hpq rest => ?_, fun front hfront hne => ?_⟩
  · rw [List.append_assoc, hpass _ hpq.1, (hf hpq.1).whole hpq.2]
  · rw [List.append_assoc]
    by_cases hp : p
    · rw [hpass _ hp, (hf hp).refused fun hq => hpq ⟨hp, hq⟩]
    · exact hstop _ hp
  · obtain ⟨rest, hrest⟩ := hfront
    rcases List.append_eq_append_iff.mp hrest with
      ⟨behind, hbytes, -⟩ | ⟨behind, rfl, hmore⟩
    · -- the bytes end before the second reader starts, or just there
      by_cases hwhole : front = bytes
      · subst hwhole
        by_cases hp : p
        · have hcut : f a [] = none := by
            refine (hf hp).cut [] List.nil_prefix fun hnil => hne ?_
            rw [← hnil, List.append_nil]
          have hempty := hpass [] hp
          rw [List.append_nil] at hempty
          rw [hempty, hcut]
        · have hempty := hstop [] hp
          rwa [List.append_nil] at hempty
      · show (x front).bind (fun y => f y.1 y.2) = _
        rw [hx.cut front ⟨behind, hbytes.symm⟩ hwhole]
        rfl
    · by_cases hp : p
      · rw [hpass _ hp]
        refine (hf hp).cut behind ⟨rest, hmore.symm⟩ fun heq => hne ?_
        rw [heq]
      · exact hstop _ hp

/-- Reading goes on with what was read, when it is always read. -/
theorem bind_of_true {f : α → Reader β} {more : List UInt8} {b : β}
    (hx : Reads x bytes True a) (hf : Reads (f a) more q b) :
    Reads (x >>= f) (bytes ++ more) q b :=
  (hx.bind fun _ => hf).congr (by rw [true_and])

theorem finish {f : α → Reader β} {b : β} (hx : Reads x bytes p a)
    (hf : f a = Pure.pure b) : Reads (x >>= f) bytes p b := by
  have hpure := hx.bind (f := f) fun _ => hf ▸ pure b
  rwa [List.append_nil, and_true] at hpure

theorem map {f : α → β} (hx : Reads x bytes p a) :
    Reads (do return f (← x)) bytes p (f a) :=
  hx.finish rfl

theorem guarded {c : Prop} [Decidable c] (hx : c → Reads x bytes p a) :
    Reads (if c then x else Alternative.failure) bytes (c ∧ p) a := by
  by_cases hc : c
  · rw [if_pos hc]
    exact (hx hc).congr (by simp [hc])
  · rw [if_neg hc]
    exact (failure bytes a).congr (by simp [hc])

end Reads

theorem liftM_some_bind {α β : Type} (a : α) (f : α → Reader β) :
    (liftM (some a) : Reader α) >>= f = f a := rfl

/-! ## Numbers -/

theorem length_word (width n : Nat) : (word width n).length = width := by
  induction width generalizing n with
  | zero => rfl
  | succ width ih => rw [word, List.length_append, ih, List.length_singleton]

/-- **A number that fits is what its bytes hold.** -/
theorem number_word {width n : Nat} (h : n < Nat.pow 256 width) :
    number (word width n) = n := by
  induction width generalizing n with
  | zero =>
    have hzero : n < 1 := h
    rw [Nat.lt_one_iff.mp hzero]
    rfl
  | succ width ih =>
    have hdiv : n / 256 < Nat.pow 256 width := by
      rw [Nat.pow_eq] at h ⊢
      exact Nat.div_lt_of_lt_mul (by rwa [Nat.pow_succ, Nat.mul_comm] at h)
    show (word width (n / 256) ++ [UInt8.ofNat n]).foldl
      (fun n byte => n * 256 + byte.toNat) 0 = n
    rw [List.foldl_append, List.foldl_cons, List.foldl_nil]
    rw [show (word width (n / 256)).foldl (fun n byte => n * 256 + byte.toNat) 0
      = n / 256 from ih hdiv, UInt8.toNat_ofNat']
    omega

theorem reads_next (bytes : List UInt8) : Reads (next bytes.length) bytes True bytes where
  whole _ rest := by
    show (if ((bytes ++ rest).take bytes.length).length = bytes.length then _ else _) = _
    rw [List.take_left, List.drop_left, if_pos rfl]
  refused hfalse := absurd trivial hfalse
  cut front hfront hne := by
    have hlt : front.length < bytes.length := by
      refine Nat.lt_of_le_of_ne hfront.length_le fun heq => hne ?_
      exact hfront.eq_of_length heq
    show (if (front.take bytes.length).length = bytes.length then _ else _) = _
    rw [if_neg]
    rw [List.length_take]
    omega

/-- A number that fits is read from its bytes. -/
theorem reads_nextNumber {width n : Nat} (h : n < Nat.pow 256 width) :
    Reads (nextNumber width) (word width n) True n := by
  have hnext := reads_next (word width n)
  rw [length_word] at hnext
  have hnumber := hnext.map (f := number)
  rwa [number_word h] at hnumber

/-- A number below zero is read from the bytes of its complement. -/
theorem reads_nextSigned {width : Nat} {n : Int} (hneg : n < 0)
    (hfits : -(Nat.pow 256 width : Int) ≤ 2 * n) :
    Reads (nextSigned width) (word width (n + Nat.pow 256 width).toNat) True n := by
  set size := Nat.pow 256 width
  have hlt : (n + size).toNat < size := by omega
  have hread := (reads_nextNumber hlt).map
    (f := fun m => if 2 * m < size then (m : Int) else (m : Int) - size)
  have hvalue : (if 2 * (n + size).toNat < size then ((n + size).toNat : Int)
      else ((n + size).toNat : Int) - size) = n := by
    rw [if_neg (by omega)]
    omega
  rwa [hvalue] at hread

/-- Bytes are read behind their number. -/
theorem reads_nextCounted {width : Nat} {bytes : List UInt8}
    (h : bytes.length < Nat.pow 256 width) :
    Reads (nextCounted width) (word width bytes.length ++ bytes) True bytes :=
  (reads_nextNumber h).bind_of_true (reads_next bytes)

/-- **A sequence of values is read one by one.** It is refused if one of them
is. -/
theorem reads_many {α : Type} {item : Reader α} {write : α → List UInt8}
    {provided : α → Prop} {items : List α}
    (h : ∀ a ∈ items, Reads item (write a) (provided a) a) :
    Reads (many item items.length) (items.flatMap write)
      (∀ a ∈ items, provided a) items := by
  induction items with
  | nil => exact (Reads.pure []).congr (by simp)
  | cons a items ih =>
    have hothers := ih fun b hb => h b (List.mem_cons_of_mem _ hb)
    rw [List.flatMap_cons, List.length_cons]
    refine ((h a List.mem_cons_self).bind fun _ => hothers.map).congr ?_
    rw [List.forall_mem_cons]

/-! ## Heads -/

namespace Head

/-- **A head fits its forms**: numbers have at most sixty-four bits, lengths at
most thirty-two, and only numbers below zero have a form with a sign. -/
def Fits : Head → Prop
  | .unsigned n => n < 0x10000000000000000
  | .signed n => -0x8000000000000000 ≤ n ∧ n < 0
  | .text bytes => bytes.length < 0x100000000
  | .binary bytes => bytes.length < 0x100000000
  | .array count => count < 0x100000000
  | .map count => count < 0x100000000
  | .extension _ data => data.length < 0x100000000
  | _ => True

/-- The rest of a head, by its marker. -/
def readBehind (marker : Nat) : Reader Head :=
  if marker < 0x80 then return .unsigned marker
  else if marker < 0x90 then return .map (marker - 0x80)
  else if marker < 0xa0 then return .array (marker - 0x90)
  else if marker < 0xc0 then return .text (← next (marker - 0xa0))
  else if marker < 0xe0 then readMarked marker
  else return .signed (marker - 0x100)

theorem read_eq : read = nextNumber 1 >>= readBehind := rfl

variable {bytes : List UInt8} {h : Head}

/-- A head is read by its marker. -/
theorem reads_of_readBehind {marker : Nat} (hmarker : marker < 256)
    (hread : Reads (readBehind marker) bytes True h) :
    Reads read (UInt8.ofNat marker :: bytes) True h := by
  rw [read_eq]
  have hnumber : Reads (nextNumber 1) (word 1 marker) True marker :=
    reads_nextNumber hmarker
  exact hnumber.bind_of_true hread

/-- A head is read whose marker stands alone in naming its form. -/
theorem reads_of_readMarked {marker : UInt8} (hlow : 0xc0 ≤ marker.toNat)
    (hhigh : marker.toNat < 0xe0)
    (hread : Reads (readMarked marker.toNat) bytes True h) :
    Reads read (marker :: bytes) True h := by
  have hbehind : readBehind marker.toNat = readMarked marker.toNat := by
    unfold readBehind
    rw [if_neg (by omega), if_neg (by omega), if_neg (by omega), if_neg (by omega),
      if_pos hhigh]
  have hhead := reads_of_readBehind (by omega) (hbehind ▸ hread)
  rwa [UInt8.ofNat_toNat] at hhead

/-- **A length is read behind whichever marker was chosen for it.** -/
theorem reads_writeLength {markers : List (UInt8 × Nat)} {n : Nat}
    (hmarked : ∀ x ∈ markers, 0xc0 ≤ x.1.toNat ∧ x.1.toNat < 0xe0)
    (hfits : ∃ x ∈ markers.getLast?, n < Nat.pow 256 x.2)
    (hread : ∀ x ∈ markers, n < Nat.pow 256 x.2 →
      Reads (readMarked x.1.toNat) (word x.2 n ++ bytes) True h) :
    Reads read (writeLength markers n ++ bytes) True h := by
  have hchosen : ∀ x ∈ markers, n < Nat.pow 256 x.2 →
      Reads read (x.1 :: word x.2 n ++ bytes) True h := fun x hx hlt =>
    reads_of_readMarked (hmarked x hx).1 (hmarked x hx).2 (hread x hx hlt)
  clear hmarked hread
  fun_induction writeLength markers n with
  | case1 =>
    obtain ⟨x, hx, -⟩ := hfits
    cases hx
  | case2 marker width =>
    obtain ⟨x, hx, hlt⟩ := hfits
    cases hx
    exact hchosen _ List.mem_cons_self hlt
  | case3 marker width wider hmore hlt => exact hchosen _ List.mem_cons_self hlt
  | case4 marker width wider hmore hlt ih =>
    refine ih ?_ fun x hx => hchosen x (List.mem_cons_of_mem _ hx)
    cases wider with
    | nil => exact absurd rfl hmore
    | cons y wider => exact hfits

theorem reads_unsigned {n : Nat} (hn : n < 0x10000000000000000) :
    Reads read (unsigned n).write True (unsigned n) := by
  rw [write]
  by_cases hsmall : n < 0x80
  · rw [if_pos hsmall]
    refine reads_of_readBehind (by omega) ?_
    rw [readBehind, if_pos hsmall]
    exact .pure _
  · rw [if_neg hsmall, ← List.append_nil (writeLength _ _)]
    refine reads_writeLength (by decide) ⟨_, rfl, hn⟩ ?_
    simp only [List.forall_mem_cons]
    exact ⟨fun hlt => (reads_nextNumber hlt).bind_of_true (.pure _),
      fun hlt => (reads_nextNumber hlt).bind_of_true (.pure _),
      fun hlt => (reads_nextNumber hlt).bind_of_true (.pure _),
      fun hlt => (reads_nextNumber hlt).bind_of_true (.pure _),
      fun x hx => absurd hx List.not_mem_nil⟩

theorem reads_signed {n : Int} (hlow : -0x8000000000000000 ≤ n) (hneg : n < 0) :
    Reads read (signed n).write True (signed n) := by
  -- the marker is one of those for the widths, from the narrowest on
  have hmarked : ∀ (marker : UInt8) (width : Nat), 0xc0 ≤ marker.toNat →
      marker.toNat < 0xe0 → readMarked marker.toNat = signed <$> nextSigned width →
      -(Nat.pow 256 width : Int) ≤ 2 * n →
      Reads read (marker :: word width (n + Nat.pow 256 width).toNat) True (signed n) := by
    intro marker width hlow hhigh hread hfits
    refine reads_of_readMarked hlow hhigh ?_
    rw [hread]
    exact (reads_nextSigned hneg hfits).map
  rw [write]
  split_ifs with hfix hbyte hshort hlong
  · refine reads_of_readBehind (by omega) ?_
    rw [readBehind, if_neg (by omega), if_neg (by omega), if_neg (by omega),
      if_neg (by omega), if_neg (by omega)]
    have hvalue : ((n + 0x100).toNat : Int) - 0x100 = n := by omega
    rw [hvalue]
    exact .pure _
  · exact hmarked 0xd0 1 (by decide) (by decide) rfl (by simp; omega)
  · exact hmarked 0xd1 2 (by decide) (by decide) rfl (by simp; omega)
  · exact hmarked 0xd2 4 (by decide) (by decide) rfl (by simp; omega)
  · exact hmarked 0xd3 8 (by decide) (by decide) rfl (by simp; omega)

theorem reads_text {text : List UInt8} (htext : text.length < 0x100000000) :
    Reads read (Head.text text).write True (.text text) := by
  rw [write]
  by_cases hsmall : text.length < 0x20
  · rw [if_pos hsmall]
    refine reads_of_readBehind (by omega) ?_
    rw [readBehind, if_neg (by omega), if_neg (by omega), if_neg (by omega),
      if_pos (by omega), Nat.add_sub_cancel_left]
    exact (reads_next text).map
  · rw [if_neg hsmall]
    refine reads_writeLength (by decide) ⟨_, rfl, htext⟩ ?_
    simp only [List.forall_mem_cons]
    exact ⟨fun hlt => (reads_nextCounted hlt).map, fun hlt => (reads_nextCounted hlt).map,
      fun hlt => (reads_nextCounted hlt).map, fun x hx => absurd hx List.not_mem_nil⟩

/-- A number of items or entries is read from the marker itself, or behind one of two
markers. -/
theorem reads_count {head : Nat → Head} {base count : Nat} {narrow wide : UInt8}
    (hbase : base + 0x10 ≤ 256)
    (hshort : ∀ n < 0x10, readBehind (base + n) = Pure.pure (head n))
    (hmarked : ∀ x ∈ [(narrow, 2), (wide, 4)], 0xc0 ≤ x.1.toNat ∧ x.1.toNat < 0xe0)
    (hnarrow : readMarked narrow.toNat = head <$> nextNumber 2)
    (hwide : readMarked wide.toNat = head <$> nextNumber 4)
    (hcount : count < 0x100000000) :
    Reads read (if count < 0x10 then [UInt8.ofNat (base + count)]
      else writeLength [(narrow, 2), (wide, 4)] count) True (head count) := by
  by_cases hsmall : count < 0x10
  · rw [if_pos hsmall]
    refine reads_of_readBehind (by omega) ?_
    rw [hshort count hsmall]
    exact .pure _
  · rw [if_neg hsmall, ← List.append_nil (writeLength _ _)]
    refine reads_writeLength hmarked ⟨_, rfl, hcount⟩ ?_
    simp only [List.forall_mem_cons, List.append_nil, hnarrow, hwide]
    exact ⟨fun hlt => (reads_nextNumber hlt).map, fun hlt => (reads_nextNumber hlt).map,
      fun x hx => absurd hx List.not_mem_nil⟩

theorem reads_extension {type : UInt8} {data : List UInt8}
    (hdata : data.length < 0x100000000) :
    Reads read (extension type data).write True (extension type data) := by
  have hnext : ∀ size, data.length = size →
      Reads (nextExtension size) (type :: data) True (extension type data) := by
    rintro size rfl
    have htype : Reads (nextNumber 1) (word 1 type.toNat) True type.toNat :=
      reads_nextNumber type.toNat_lt
    have hall : Reads (nextExtension data.length) (word 1 type.toNat ++ data) True
        (extension (UInt8.ofNat type.toNat) data) :=
      htype.bind_of_true (reads_next data).map
    rwa [UInt8.ofNat_toNat, show word 1 type.toNat = [UInt8.ofNat type.toNat] from rfl,
      UInt8.ofNat_toNat] at hall
  rw [write]
  generalize hsize : data.length = size at hdata
  fun_cases writeExtension size with
  | case1 => exact reads_of_readMarked (by decide) (by decide) (hnext _ hsize)
  | case2 => exact reads_of_readMarked (by decide) (by decide) (hnext _ hsize)
  | case3 => exact reads_of_readMarked (by decide) (by decide) (hnext _ hsize)
  | case4 => exact reads_of_readMarked (by decide) (by decide) (hnext _ hsize)
  | case5 => exact reads_of_readMarked (by decide) (by decide) (hnext _ hsize)
  | case6 =>
    refine reads_writeLength (by decide) ⟨_, rfl, hdata⟩ ?_
    simp only [List.forall_mem_cons]
    exact ⟨fun hlt => (reads_nextNumber hlt).bind_of_true (hnext _ hsize),
      fun hlt => (reads_nextNumber hlt).bind_of_true (hnext _ hsize),
      fun hlt => (reads_nextNumber hlt).bind_of_true (hnext _ hsize),
      fun x hx => absurd hx List.not_mem_nil⟩

/-- **A head that fits is read from its written form.** -/
theorem reads_read (hfits : h.Fits) : Reads read h.write True h := by
  cases h with
  | nil => exact reads_of_readMarked (by decide) (by decide) (.pure _)
  | bool b =>
    cases b with
    | false => exact reads_of_readMarked (by decide) (by decide) (.pure _)
    | true => exact reads_of_readMarked (by decide) (by decide) (.pure _)
  | unsigned n => exact reads_unsigned hfits
  | signed n => exact reads_signed hfits.1 hfits.2
  | double d =>
    refine reads_of_readMarked (by decide) (by decide) ?_
    have hbits : Reads (nextNumber 8) (word 8 d.bits.toNat) True d.bits.toNat :=
      reads_nextNumber d.bits.toNat_lt
    have hdouble := hbits.map (f := fun n => double ⟨UInt64.ofNat n⟩)
    rwa [UInt64.ofNat_toNat] at hdouble
  | text bytes => exact reads_text hfits
  | binary bytes =>
    refine reads_writeLength (by decide) ⟨_, rfl, hfits⟩ ?_
    simp only [List.forall_mem_cons]
    exact ⟨fun hlt => (reads_nextCounted hlt).map, fun hlt => (reads_nextCounted hlt).map,
      fun hlt => (reads_nextCounted hlt).map, fun x hx => absurd hx List.not_mem_nil⟩
  | array count =>
    refine reads_count (by decide) (fun n hn => ?_) (by decide) rfl rfl hfits
    rw [readBehind, if_neg (by omega), if_neg (by omega), if_pos (by omega),
      Nat.add_sub_cancel_left]
  | map count =>
    refine reads_count (by decide) (fun n hn => ?_) (by decide) rfl rfl hfits
    rw [readBehind, if_neg (by omega), if_pos (by omega), Nat.add_sub_cancel_left]
  | extension type data => exact reads_extension hfits

end Head

end Interlink.MessagePack
