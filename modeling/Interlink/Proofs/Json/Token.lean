import Mathlib.Data.List.Chain
import Interlink.Json.Token
import Interlink.Proofs.Json.Number

/-!
# Tokens are scanned as they were written

A text is scanned by looking at its front: for each kind of token it is shown
that its text, whatever follows, is scanned as that token (`token?_text`). Only
a number asks something of what follows, that it does not go on there (`Ends`).
Then a sequence of tokens is scanned from its texts with blanks between them
(`scan?_spread`), or with nothing between them if no two numbers stand side by
side (`spread_texts`).

A string is scanned in two steps, and so there are two statements about it: each
character is written as one piece (`pieces?_escape`), and the pieces of
characters are those characters again (`characters?_map_piece`).
-/

namespace Interlink.Json

/-! ## Strings -/

/-- The piece that a character is written as: a control character without an
escape of its own is a unit, and every other character is itself. -/
def piece (c : Char) : Piece :=
  if c.toNat < 0x20 ∧ c ∉ ['\x08', '\x0c', '\n', '\r', '\t'] then .unit c.toNat
  else .char c

theorem unit?_hexDigit {n : Nat} (h : n < 0x20) :
    unit? '0' '0' (hexDigit (n / 16)) (hexDigit (n % 16)) = some n := by
  revert n
  decide

/-- **A character is scanned as its piece.** -/
theorem pieces?_escape (c : Char) (done : List Piece) (rest : List (Option Char)) :
    pieces? done ((escape c).map some ++ rest) = pieces? (piece c :: done) rest := by
  by_cases hletter : c ∈ ['"', '\\', '\x08', '\x0c', '\n', '\r', '\t']
  · simp only [List.mem_cons, List.not_mem_nil, or_false] at hletter
    rcases hletter with rfl | rfl | rfl | rfl | rfl | rfl | rfl <;> rfl
  · simp only [List.mem_cons, List.not_mem_nil, or_false, not_or] at hletter
    by_cases hcontrol : c.toNat < 0x20
    · have hescape : escape c
          = ['\\', 'u', '0', '0', hexDigit (c.toNat / 16), hexDigit (c.toNat % 16)] := by
        simp [escape, hletter, hcontrol]
      have hpiece : piece c = .unit c.toNat := by simp [piece, hletter, hcontrol]
      rw [hescape, hpiece]
      simp [pieces?, unit?_hexDigit hcontrol]
    · have hescape : escape c = [c] := by simp [escape, hletter, hcontrol]
      have hpiece : piece c = .char c := by simp [piece, hcontrol]
      rw [hescape, hpiece]
      simp [pieces?, hletter, hcontrol]

/-- The letters of a string are scanned up to its closing quote. -/
theorem pieces?_flatMap_escape (cs : List Char) (done : List Piece)
    (rest : List (Option Char)) :
    pieces? done ((cs.flatMap escape).map some ++ some '"' :: rest)
      = some (done.reverse ++ cs.map piece, rest) := by
  induction cs generalizing done with
  | nil => simp [pieces?]
  | cons c cs ih =>
    rw [List.flatMap_cons, List.map_append, List.append_assoc, pieces?_escape, ih,
      List.reverse_cons, List.map_cons, List.append_assoc]
    rfl

/-- A unit of a control character is no half of a pair. -/
theorem characters?_unit {n : Nat} (h : n < 0x20) (done : List Char) (rest : List Piece) :
    characters? done (.unit n :: rest) = characters? (Char.ofNat n :: done) rest := by
  have hhigh : isHighSurrogate n = false := by
    rw [isHighSurrogate, decide_eq_false_iff_not]
    omega
  have hlow : isLowSurrogate n = false := by
    rw [isLowSurrogate, decide_eq_false_iff_not]
    omega
  cases rest with
  | nil => simp [characters?, hhigh, hlow]
  | cons next rest => cases next <;> simp [characters?, hhigh, hlow]

theorem characters?_piece (c : Char) (done : List Char) (rest : List Piece) :
    characters? done (piece c :: rest) = characters? (c :: done) rest := by
  unfold piece
  split
  next h => rw [characters?_unit h.1, Char.ofNat_toNat]
  next => rfl

/-- **The pieces of characters are those characters.** -/
theorem characters?_map_piece (cs : List Char) (done : List Char) :
    characters? done (cs.map piece) = some (done.reverse ++ cs) := by
  induction cs generalizing done with
  | nil => simp [characters?]
  | cons c cs ih =>
    rw [List.map_cons, characters?_piece, ih, List.reverse_cons, List.append_assoc]
    rfl

/-! ## Numbers -/

/-- A number does not go on in what follows it. -/
def Ends (rest : List (Option Char)) : Prop :=
  ∀ l ∈ rest.head?, isDigit l = false ∧ l ∉ [some '.', some 'e', some 'E']

theorem isDigit_some (c : Char) : isDigit (some c) = c.isDigit := by
  rw [isDigit, Bool.eq_iff_iff, decide_eq_true_iff, Char.isDigit_iff_toNat]
  exact Iff.rfl

/-- Digits are scanned up to what is no digit. -/
theorem spanDigits_append {digits : List Char} (hdigits : ∀ c ∈ digits, c.isDigit = true)
    {rest : List (Option Char)} (hrest : ∀ l ∈ rest.head?, isDigit l = false) :
    spanDigits (digits.map some ++ rest) = (digits, rest) := by
  have hall : ∀ l ∈ digits.map some, isDigit l = true := by
    intro l hl
    obtain ⟨c, hc, rfl⟩ := List.mem_map.mp hl
    rw [isDigit_some, hdigits c hc]
  have hnone : rest.takeWhile isDigit = [] ∧ rest.dropWhile isDigit = rest := by
    cases rest with
    | nil => exact ⟨rfl, rfl⟩
    | cons l rest =>
      have hl : isDigit l = false := hrest l rfl
      simp [hl]
  unfold spanDigits
  rw [List.takeWhile_append_of_pos hall, List.dropWhile_append_of_pos hall, hnone.1, hnone.2]
  simp

/-- The text of a fraction. -/
def fractionText (fraction : List Char) : List Char :=
  if fraction.isEmpty then [] else '.' :: fraction

/-- The text of an exponent. -/
def exponentText : Option (Bool × List Char) → List Char
  | none => []
  | some (below, digits) => 'e' :: (if below then '-' else '+') :: digits

/-- The text of a number without its sign. -/
def Number.unsigned (n : Number) : List Char :=
  n.whole ++ (fractionText n.fraction ++ exponentText n.exponent)

theorem Number.text_eq (n : Number) :
    n.text = (if n.negative then ['-'] else []) ++ n.unsigned := by
  unfold Number.text Number.unsigned fractionText
  simp only [List.append_assoc]
  cases n.exponent <;> rfl

/-- A fraction is scanned up to what is neither a digit nor a point. -/
theorem fraction?_append {fraction : List Char} (h : ∀ c ∈ fraction, c.isDigit = true)
    {rest : List (Option Char)} (hrest : ∀ l ∈ rest.head?, isDigit l = false ∧ l ≠ some '.') :
    fraction? ((fractionText fraction).map some ++ rest) = some (fraction, rest) := by
  cases fraction with
  | nil =>
    cases rest with
    | nil => rfl
    | cons l rest =>
      have hl := (hrest l rfl).2
      show fraction? (l :: rest) = _
      unfold fraction?
      split
      next heq => exact absurd (List.cons.inj heq).1 hl
      next => rfl
  | cons c cs =>
    show fraction? (some '.' :: ((c :: cs).map some ++ rest)) = _
    rw [fraction?, spanDigits_append h fun l hl => (hrest l hl).1]

/-- An exponent is scanned up to where a number ends. -/
theorem exponent?_append {exponent : Option (Bool × List Char)}
    (h : ∀ below digits, exponent = some (below, digits) →
      digits ≠ [] ∧ ∀ c ∈ digits, c.isDigit = true)
    {rest : List (Option Char)} (hrest : Ends rest) :
    exponent? ((exponentText exponent).map some ++ rest) = some (exponent, rest) := by
  cases exponent with
  | none =>
    cases rest with
    | nil => rfl
    | cons l rest =>
      have hl := (hrest l rfl).2
      simp only [List.mem_cons, List.not_mem_nil, or_false, not_or] at hl
      show exponent? (l :: rest) = _
      unfold exponent?
      split
      next heq => exact absurd (List.cons.inj heq).1 hl.2.1
      next heq => exact absurd (List.cons.inj heq).1 hl.2.2
      next => rfl
  | some signed =>
    obtain ⟨hne, hdigits⟩ := h signed.1 signed.2 rfl
    have hspan := spanDigits_append hdigits fun l hl => (hrest l hl).1
    have hsign : exponentSign (some (if signed.1 then '-' else '+')
        :: (signed.2.map some ++ rest)) = (signed.1, signed.2.map some ++ rest) := by
      cases signed.1 <;> rfl
    show exponentDigits? (some (if signed.1 then '-' else '+')
      :: (signed.2.map some ++ rest)) = _
    unfold exponentDigits?
    rw [hsign]
    dsimp only
    rw [hspan]
    split
    next heq => exact absurd (Prod.mk.inj heq).1 hne
    next heq =>
      obtain ⟨rfl, rfl⟩ := Prod.mk.inj heq
      rfl

/-- **A proper number is scanned as it was written.** -/
theorem number?_unsigned {n : Number} (h : n.Proper) {rest : List (Option Char)}
    (hrest : Ends rest) : number? n.negative (n.unsigned.map some ++ rest) = some (n, rest) := by
  -- what follows the fraction, and what follows the whole digits
  generalize hafter : (exponentText n.exponent).map some ++ rest = after
  have hafter' : ∀ l ∈ after.head?, isDigit l = false ∧ l ≠ some '.' := by
    rw [← hafter]
    cases n.exponent with
    | none => exact fun l hl => ⟨(hrest l hl).1, fun heq => (hrest l hl).2 (by simp [heq])⟩
    | some signed =>
      rintro l ⟨⟩
      decide
  have hbehind : ∀ l ∈ ((fractionText n.fraction).map some ++ after).head?,
      isDigit l = false := by
    cases n.fraction with
    | nil => exact fun l hl => (hafter' l hl).1
    | cons c cs =>
      rintro l ⟨⟩
      decide
  have hletters : n.unsigned.map some ++ rest
      = n.whole.map some ++ ((fractionText n.fraction).map some ++ after) := by
    rw [← hafter, Number.unsigned, List.map_append, List.map_append, List.append_assoc,
      List.append_assoc]
  rw [hletters]
  unfold number?
  rw [spanDigits_append h.whole hbehind]
  split
  next heq => exact absurd (Prod.mk.inj heq).1 h.nonempty
  next heq =>
    have hwhole := (Prod.mk.inj heq).1
    have hlead := h.lead (by rw [hwhole]; rfl)
    rw [hwhole] at hlead
    cases hlead
  next heq =>
    obtain ⟨rfl, rfl⟩ := Prod.mk.inj heq
    rw [fraction?_append h.fraction hafter', ← hafter]
    dsimp only
    rw [exponent?_append h.exponent hrest]

/-! ## Tokens -/

namespace Token

/-- **A token is written**: a number is proper, and a string has a text. -/
def Written : Token → Prop
  | .num n => n.Proper
  | .str text => text.isSome = true
  | _ => True

/-- Whether a token is a number. -/
def isNumber : Token → Bool
  | .num _ => true
  | _ => false

end Token

theorem isBlank_of_isDigit {c : Char} (hc : c.isDigit = true) : isBlank c = false := by
  rw [Bool.eq_false_iff]
  intro hblank
  simp only [isBlank, Bool.or_eq_true, beq_iff_eq] at hblank
  rcases hblank with ((rfl | rfl) | rfl) | rfl <;> exact absurd hc (by decide)

/-- A token that starts with a digit is a number. -/
theorem token?_of_isDigit {c : Char} (hc : c.isDigit = true) (rest : List (Option Char)) :
    token? c rest = (number? false (some c :: rest)).map fun x => (.num x.1, x.2) := by
  unfold token?
  split
  all_goals first | rfl | exact absurd hc (by decide)

/-- **A token is scanned as it was written**, whatever follows, but that a number
has to end where its text does. -/
theorem token?_text {t : Token} (h : t.Written) {rest : List (Option Char)}
    (hrest : t.isNumber = true → Ends rest) :
    ∃ c cs, t.text = c :: cs ∧ isBlank c = false
      ∧ token? c (cs.map some ++ rest) = some (t, rest) := by
  cases t with
  | bool b => cases b <;> exact ⟨_, _, rfl, rfl, rfl⟩
  | num n =>
    have hnumber := number?_unsigned h (hrest rfl)
    rw [Token.text, Number.text_eq]
    cases hnegative : n.negative with
    | true =>
      rw [hnegative] at hnumber
      refine ⟨'-', n.unsigned, rfl, rfl, ?_⟩
      show (number? true _).map _ = _
      rw [hnumber]
      rfl
    | false =>
      rw [hnegative] at hnumber
      obtain ⟨c, cs, hwhole⟩ := List.exists_cons_of_ne_nil h.nonempty
      have hc : c.isDigit = true := h.whole c (by rw [hwhole]; exact List.mem_cons_self)
      have hunsigned : n.unsigned
          = c :: (cs ++ (fractionText n.fraction ++ exponentText n.exponent)) := by
        rw [Number.unsigned, hwhole]
        rfl
      rw [hunsigned] at hnumber ⊢
      refine ⟨c, _, rfl, ?_, ?_⟩
      · exact isBlank_of_isDigit hc
      · rw [token?_of_isDigit hc]
        show (number? false ((c :: _).map some ++ rest)).map _ = _
        rw [hnumber]
        rfl
  | str text =>
    obtain ⟨s, rfl⟩ := Option.isSome_iff_exists.mp h
    refine ⟨'"', s.toList.flatMap escape ++ ['"'], rfl, rfl, ?_⟩
    have hpieces : pieces? [] ((s.toList.flatMap escape ++ ['"']).map some ++ rest)
        = some (s.toList.map piece, rest) := by
      rw [List.map_append, List.append_assoc]
      exact pieces?_flatMap_escape s.toList [] rest
    rw [token?, hpieces]
    dsimp only
    rw [characters?_map_piece]
    show some (Token.str (some (String.ofList s.toList)), rest) = _
    rw [String.ofList_toList]
  | _ => exact ⟨_, _, rfl, rfl, rfl⟩

/-! ## Sequences of tokens -/

/-- **No two numbers stand side by side** in a sequence of tokens. -/
def Spaced : List Token → Prop :=
  List.IsChain fun t u => t.isNumber = true → u.isNumber = false

/-- A number ends where another token starts. -/
theorem ends_text {t : Token} (h : t.isNumber = false) (rest : List (Option Char)) :
    Ends (t.text.map some ++ rest) := by
  cases t with
  | bool b => cases b <;> (rintro l ⟨⟩; decide)
  | num n => cases h
  | _ => rintro l ⟨⟩; decide

theorem ends_nil : Ends [] := fun l hl => by cases hl

/-- **Tokens are spread over characters**: the characters are the texts of the
tokens in their order, with blanks anywhere between them. -/
inductive Spread : List Token → List Char → Prop
  | nil : Spread [] []
  | blank {ts : List Token} {cs : List Char} {c : Char} (blank : isBlank c = true)
      (rest : Spread ts cs) : Spread ts (c :: cs)
  | token {ts : List Token} {cs : List Char} {t : Token} (written : t.Written)
      (ends : t.isNumber = true → Ends (cs.map some)) (rest : Spread ts cs) :
      Spread (t :: ts) (t.text ++ cs)

/-- Each blank and each token takes one step of the scan. -/
theorem scanFrom?_spread {ts : List Token} {cs : List Char} (h : Spread ts cs) {fuel : Nat}
    (hfuel : cs.length ≤ fuel) (done : List Token) :
    scanFrom? fuel done (cs.map some) = some (done.reverse ++ ts) := by
  induction h generalizing fuel done with
  | nil => simp [scanFrom?]
  | @blank ts cs c hblank _ ih =>
    cases fuel with
    | zero => exact absurd hfuel (Nat.not_succ_le_zero _)
    | succ fuel =>
      rw [List.map_cons, scanFrom?, if_pos hblank]
      exact ih (Nat.le_of_succ_le_succ hfuel) done
  | @token ts cs t hwritten hends _ ih =>
    obtain ⟨c, word, htext, hblank, htoken⟩ := token?_text hwritten hends
    rw [htext] at hfuel ⊢
    cases fuel with
    | zero => exact absurd hfuel (Nat.not_succ_le_zero _)
    | succ fuel =>
      have hleft : cs.length ≤ fuel := by
        rw [List.cons_append, List.length_cons, List.length_append] at hfuel
        omega
      rw [List.cons_append, List.map_cons, List.map_append, scanFrom?, hblank, htoken]
      dsimp only
      rw [ih hleft (t :: done), List.reverse_cons, List.append_assoc]
      rfl

/-- **Tokens are scanned from the characters they are spread over.** -/
theorem scan?_spread {ts : List Token} {cs : List Char} (h : Spread ts cs) :
    Token.scan? (cs.map some) = some ts := by
  refine scanFrom?_spread h ?_ []
  rw [List.length_map]

/-- Tokens are spread over their texts with nothing between them, if no two
numbers stand side by side. -/
theorem spread_texts {ts : List Token} (hwritten : ∀ t ∈ ts, t.Written)
    (hspaced : Spaced ts) : Spread ts (ts.flatMap Token.text) := by
  induction ts with
  | nil => exact .nil
  | cons t ts ih =>
    have hends : t.isNumber = true → Ends ((ts.flatMap Token.text).map some) := by
      intro hnumber
      cases ts with
      | nil => exact ends_nil
      | cons u ts =>
        rw [List.flatMap_cons, List.map_append]
        exact ends_text ((List.isChain_cons_cons.mp hspaced).1 hnumber) _
    obtain ⟨ht, hts⟩ := List.forall_mem_cons.mp hwritten
    rw [List.flatMap_cons]
    exact .token ht hends (ih hts hspaced.tail)

end Interlink.Json
