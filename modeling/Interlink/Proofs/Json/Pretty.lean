import Interlink.Proofs.Json.Tree

/-!
# Trees are read from their spread texts

A tree that is written with one item or member to a line is the sequence of its
tokens with blanks between them, and so is read as the tree it was
(`parse?_pretty`). Where a value stands does not matter, only that what follows
it is not the rest of a number; a line break, a comma and the end of a text are
not (`Lays`).
-/

namespace Interlink.Json

/-! ## Layout -/

/-- **Characters lay tokens out**: they spread them, in front of whatever spreads
other tokens and does not go on with a number. -/
def Lays (ts : List Token) (cs : List Char) : Prop :=
  ∀ us rest, Ends (rest.map some) → Spread us rest → Spread (ts ++ us) (cs ++ rest)

variable {ts : List Token} {cs : List Char}

/-- A token is laid out by its text. -/
theorem lays_text {t : Token} (h : t.Written) : Lays [t] t.text :=
  fun _ _ hends hrest => .token h (fun _ => hends) hrest

theorem Lays.blank (h : Lays ts cs) {c : Char} (hc : isBlank c = true) : Lays ts (c :: cs) :=
  fun us rest hends hrest => .blank hc (h us rest hends hrest)

/-- A line break in front changes nothing. -/
theorem Lays.newline (h : Lays ts cs) (level : Nat) : Lays ts (newline level ++ cs) := by
  have hblanks : ∀ n, Lays ts (List.replicate n ' ' ++ cs) := by
    intro n
    induction n with
    | zero => exact h
    | succ n ih => exact ih.blank rfl
  exact (hblanks (2 * level)).blank rfl

/-- A token that is no number may stand in front of anything. -/
theorem Lays.cons (h : Lays ts cs) {t : Token} (ht : t.Written) (hnumber : t.isNumber = false) :
    Lays (t :: ts) (t.text ++ cs) := by
  intro us rest hends hrest
  rw [List.append_assoc]
  refine .token ht (fun htrue => ?_) (h us rest hends hrest)
  rw [hnumber] at htrue
  cases htrue

/-- What is laid out may be followed by what starts with the end of a number. -/
theorem Lays.append {us : List Token} {ds : List Char} (h : Lays ts cs) (h' : Lays us ds)
    (hends : ∀ rest, Ends ((ds ++ rest).map some)) : Lays (ts ++ us) (cs ++ ds) := by
  intro vs rest hrest hspread
  rw [List.append_assoc, List.append_assoc]
  exact h _ _ (hends rest) (h' vs rest hrest hspread)

theorem ends_newline (level : Nat) (rest : List Char) :
    Ends ((newline level ++ rest).map some) := by
  rintro l ⟨⟩
  decide

theorem ends_comma (rest : List Char) : Ends ((',' :: rest).map some) := by
  rintro l ⟨⟩
  decide

/-- **Parts are laid out with commas between them**, up to a closing bracket on a
line of its own. -/
theorem lays_separated {α : Type} {f : α → List Token} {g : α → List Char} {xs : List α}
    (hxs : ∀ x ∈ xs, Lays (f x) (g x)) (close : Token) (hclose : close.Written)
    {first : List Token} {chars : List Char} (hfirst : Lays first chars) (level : Nat) :
    Lays (first ++ (xs.flatMap fun x => .comma :: f x) ++ [close])
      (chars ++ (xs.flatMap fun x => ',' :: g x) ++ newline level ++ close.text) := by
  induction xs generalizing first chars with
  | nil =>
    rw [List.flatMap_nil, List.append_nil, List.flatMap_nil, List.append_nil,
      List.append_assoc]
    refine hfirst.append ((lays_text hclose).newline level) fun rest => ?_
    rw [List.append_assoc]
    exact ends_newline level _
  | cons x xs ih =>
    obtain ⟨hx, hxs⟩ := List.forall_mem_cons.mp hxs
    have hnext : Lays (first ++ .comma :: f x) (chars ++ ',' :: g x) :=
      hfirst.append (hx.cons (t := .comma) trivial rfl) fun rest => ends_comma _
    have hall := ih hxs hnext
    simp only [List.append_assoc, List.cons_append, List.flatMap_cons] at hall ⊢
    exact hall

/-! ## Lines -/

theorem prettyItems_cons (level : Nat) (item : Json) (items : List Json) :
    prettyItems level (item :: items)
      = newline level ++ prettyChars level item
        ++ items.flatMap fun j => ',' :: (newline level ++ prettyChars level j) := by
  induction items generalizing item with
  | nil => rw [prettyItems, List.flatMap_nil, List.append_nil]
  | cons next items ih =>
    rw [prettyItems, ih, List.flatMap_cons, List.cons_append]
    exact List.cons_ne_nil next items

/-- The line of a member. -/
def prettyMember (level : Nat) (member : Option String × Json) : List Char :=
  newline level ++ Token.text (.str member.1) ++ ':' :: ' ' :: prettyChars level member.2

theorem prettyMembers_cons (level : Nat) (member : Option String × Json)
    (members : List (Option String × Json)) :
    prettyMembers level (member :: members)
      = prettyMember level member
        ++ members.flatMap fun m => ',' :: prettyMember level m := by
  induction members generalizing member with
  | nil => rw [prettyMembers, List.flatMap_nil, List.append_nil, prettyMember]
  | cons next members ih =>
    rw [prettyMembers, ih, List.flatMap_cons]
    · simp only [prettyMember, List.append_assoc, List.cons_append]
    · exact List.cons_ne_nil next members

theorem lays_prettyMember {member : Option String × Json} (hname : member.1.isSome = true)
    {level : Nat} (hvalue : Lays member.2.tokens (prettyChars level member.2)) :
    Lays (memberToken member) (prettyMember level member) := by
  have hcolon : Lays (.colon :: member.2.tokens) (':' :: ' ' :: prettyChars level member.2) :=
    (hvalue.blank rfl).cons (t := .colon) trivial rfl
  have hline := (hcolon.cons (t := .str member.1) hname rfl).newline level
  unfold prettyMember
  rw [List.append_assoc]
  exact hline

/-- **A tree is laid out by its lines**, at any level. -/
theorem lays_prettyChars {j : Json} (h : j.Written) (level : Nat) :
    Lays j.tokens (prettyChars level j) := by
  induction j using childInduction generalizing level with
  | step j ih =>
    cases j with
    | arr items =>
      rw [written_arr] at h
      have hitems : ∀ item ∈ items,
          Lays item.tokens (newline (level + 1) ++ prettyChars (level + 1) item) :=
        fun item hitem => (ih item hitem (h item hitem) (level + 1)).newline (level + 1)
      cases items with
      | nil => exact (lays_text (t := .closeArray) trivial).cons (t := .openArray) trivial rfl
      | cons item items =>
        obtain ⟨hfirst, hrest⟩ := List.forall_mem_cons.mp hitems
        have hall := (lays_separated hrest .closeArray trivial hfirst level).cons
          (t := .openArray) trivial rfl
        rw [tokens, itemTokens_cons, prettyChars, prettyItems_cons]
        exact hall
    | obj members =>
      rw [written_obj] at h
      have hmembers : ∀ member ∈ members,
          Lays (memberToken member) (prettyMember (level + 1) member) := by
        intro member hmember
        obtain ⟨hname, hvalue⟩ := h member hmember
        exact lays_prettyMember hname
          (ih member.2 (List.mem_map_of_mem hmember) hvalue (level + 1))
      cases members with
      | nil => exact (lays_text (t := .closeObject) trivial).cons (t := .openObject) trivial rfl
      | cons member members =>
        obtain ⟨hfirst, hrest⟩ := List.forall_mem_cons.mp hmembers
        have hall := (lays_separated hrest .closeObject trivial hfirst level).cons
          (t := .openObject) trivial rfl
        rw [tokens, memberTokens_cons, prettyChars, prettyMembers_cons]
        exact hall
    | null => exact lays_text (t := .null) trivial
    | bool b => exact lays_text (t := .bool b) trivial
    | num n => exact lays_text (t := .num n) (written_num.mp h)
    | str text => exact lays_text (h _ List.mem_cons_self)

/-- **A tree is read from its spread text.** -/
theorem parse?_pretty {j : Json} (h : j.Written) : parse? j.pretty = some j := by
  refine parse?_of_spread ?_
  have hspread := lays_prettyChars h 0 [] [] ends_nil .nil
  rw [List.append_nil, List.append_nil] at hspread
  rw [pretty, String.toList_ofList]
  exact hspread

end Interlink.Json
