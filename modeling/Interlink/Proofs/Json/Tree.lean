import Interlink.Json.Tree
import Interlink.Proofs.Json.Token

/-!
# Trees are read as they were written

The machine that builds trees is followed through the tokens of a tree: started
where a value is due, it comes to the end of them with that tree as the value
just finished, whatever is open and whatever follows (`build?_tokens`). With
what is known of scanning, the compact text of a tree is read as that tree
(`parse?_compact`), and so are its bytes (`ofBytes?_compact`). All that is asked
of the tree is that it can be written at all: its strings have texts and its
numbers are proper (`Json.Written`).
-/

namespace Interlink.Json

/-! ## Induction -/

/-- The trees that a tree is made of. -/
def children : Json → List Json
  | .arr items => items
  | .obj members => members.map Prod.snd
  | _ => []

theorem sizeOf_lt_of_mem_children {j k : Json} (h : k ∈ j.children) : sizeOf k < sizeOf j := by
  cases j with
  | arr items =>
    have hlt : sizeOf k < sizeOf items := List.sizeOf_lt_of_mem h
    simp only [arr.sizeOf_spec]
    omega
  | obj members =>
    obtain ⟨⟨name, value⟩, hmember, rfl⟩ := List.mem_map.mp h
    have hlt := List.sizeOf_lt_of_mem hmember
    simp only [Prod.mk.sizeOf_spec, obj.sizeOf_spec] at hlt ⊢
    omega
  | _ => exact absurd h List.not_mem_nil

/-- **Induction on trees.** -/
theorem childInduction {motive : Json → Prop}
    (step : ∀ j, (∀ k ∈ j.children, motive k) → motive j) (j : Json) : motive j :=
  step j fun k _ => childInduction step k
termination_by sizeOf j
decreasing_by exact sizeOf_lt_of_mem_children ‹_›

/-! ## Tokens item by item -/

theorem itemTokens_cons (item : Json) (items : List Json) :
    itemTokens (item :: items) = item.tokens ++ items.flatMap fun j => .comma :: j.tokens := by
  induction items generalizing item with
  | nil => rw [itemTokens, List.flatMap_nil, List.append_nil]
  | cons next items ih =>
    rw [itemTokens, ih, List.flatMap_cons, List.cons_append]
    exact List.cons_ne_nil next items

/-- The tokens of a member. -/
def memberToken (member : Option String × Json) : List Token :=
  .str member.1 :: .colon :: member.2.tokens

theorem memberTokens_cons (member : Option String × Json)
    (members : List (Option String × Json)) :
    memberTokens (member :: members)
      = memberToken member ++ members.flatMap fun m => .comma :: memberToken m := by
  induction members generalizing member with
  | nil => rw [memberTokens, List.flatMap_nil, List.append_nil, memberToken]
  | cons next members ih =>
    rw [memberTokens, ih, List.flatMap_cons, memberToken, List.cons_append]
    · rfl
    · exact List.cons_ne_nil next members

/-! ## Building -/

/-- A value does not start with the end of an array. -/
theorem exists_tokens_eq_cons (j : Json) : ∃ t ts, j.tokens = t :: ts ∧ t ≠ .closeArray := by
  cases j <;> exact ⟨_, _, rfl, by simp⟩

theorem build?_openArray {t : Token} (ht : t ≠ .closeArray) (frames : List Frame)
    (ts : List Token) :
    build? none frames (.openArray :: t :: ts) = build? none (.array [] :: frames) (t :: ts) := by
  cases t <;> first | rfl | exact absurd rfl ht

variable {frames : List Frame} {rest : List Token}

/-- The items of an array are added one by one. -/
theorem build?_items {items : List Json}
    (hitems : ∀ item ∈ items, ∀ frames rest,
      build? none frames (item.tokens ++ rest) = build? (some item) frames rest)
    (item : Json) (done : List Json) :
    build? (some item) (.array done :: frames)
        ((items.flatMap fun j => .comma :: j.tokens) ++ .closeArray :: rest)
      = build? (some (.arr (done.reverse ++ item :: items))) frames rest := by
  induction items generalizing item done with
  | nil => simp [build?]
  | cons next items ih =>
    obtain ⟨hnext, hitems⟩ := List.forall_mem_cons.mp hitems
    rw [List.flatMap_cons, List.append_assoc, List.cons_append, build?, hnext, ih hitems,
      List.reverse_cons, List.append_assoc]
    rfl

/-- The members of an object are added one by one. -/
theorem build?_members {members : List (Option String × Json)}
    (hmembers : ∀ member ∈ members, ∀ frames rest,
      build? none frames (member.2.tokens ++ rest) = build? (some member.2) frames rest)
    (name : Option String) (value : Json) (done : List (Option String × Json)) :
    build? (some value) (.object done name :: frames)
        ((members.flatMap fun m => .comma :: memberToken m) ++ .closeObject :: rest)
      = build? (some (.obj (done.reverse ++ (name, value) :: members))) frames rest := by
  induction members generalizing name value done with
  | nil => simp [build?]
  | cons next members ih =>
    obtain ⟨hnext, hmembers⟩ := List.forall_mem_cons.mp hmembers
    rw [List.flatMap_cons, List.append_assoc, memberToken, List.cons_append, List.cons_append,
      List.cons_append, build?, hnext, ih hmembers, List.reverse_cons, List.append_assoc]
    rfl

/-- **A tree is built from its tokens.** -/
theorem build?_tokens (j : Json) : ∀ frames rest,
    build? none frames (j.tokens ++ rest) = build? (some j) frames rest := by
  induction j using childInduction with
  | step j ih =>
    intro frames rest
    cases j with
    | arr items =>
      cases items with
      | nil => simp [tokens, itemTokens, build?]
      | cons item items =>
        obtain ⟨hitem, hitems⟩ := List.forall_mem_cons.mp ih
        obtain ⟨t, ts, htokens, ht⟩ := exists_tokens_eq_cons item
        have hopen : ∀ more, build? none frames (.openArray :: (item.tokens ++ more))
            = build? none (.array [] :: frames) (item.tokens ++ more) := by
          intro more
          rw [htokens]
          exact build?_openArray ht frames _
        simp only [tokens, itemTokens_cons, List.cons_append, List.append_assoc, List.nil_append]
        rw [hopen, hitem, build?_items hitems]
        rfl
    | obj members =>
      cases members with
      | nil => simp [tokens, memberTokens, build?]
      | cons member members =>
        obtain ⟨hmember, hmembers⟩ := List.forall_mem_cons.mp (List.forall_mem_map.mp ih)
        simp only [tokens, memberTokens_cons, memberToken, List.cons_append, List.append_assoc,
          List.nil_append]
        rw [build?, hmember]
        exact build?_members hmembers member.1 member.2 []
    | _ => simp [tokens, build?]

/-! ## Tokens that are scanned -/

/-- **A tree can be written**: all its tokens can. -/
def Written (j : Json) : Prop := ∀ t ∈ j.tokens, t.Written

@[simp] theorem written_bool (b : Bool) : (bool b).Written :=
  List.forall_mem_singleton.mpr trivial

@[simp] theorem written_num {n : Number} : (num n).Written ↔ n.Proper :=
  List.forall_mem_singleton

@[simp] theorem written_text (s : String) : (text s).Written :=
  List.forall_mem_singleton.mpr rfl

@[simp] theorem written_int (n : Int) : (int n).Written :=
  written_num.mpr (Number.proper_ofInt n)

/-- What is between commas can be written if its parts can. -/
theorem forall_mem_separated {α : Type} {f : α → List Token} {xs : List α} :
    (∀ t ∈ xs.flatMap fun x => .comma :: f x, t.Written)
      ↔ ∀ x ∈ xs, ∀ t ∈ f x, t.Written := by
  have hcomma : Token.comma.Written := trivial
  simp only [List.forall_mem_flatMap, List.forall_mem_cons, hcomma, true_and]

@[simp] theorem written_arr {items : List Json} :
    (arr items).Written ↔ ∀ item ∈ items, item.Written := by
  have hopen : Token.openArray.Written := trivial
  have hclose : Token.closeArray.Written := trivial
  cases items with
  | nil => simp [Written, tokens, itemTokens, hopen, hclose]
  | cons item items =>
    simp only [Written, tokens, itemTokens_cons, List.cons_append, List.forall_mem_cons,
      List.forall_mem_append, forall_mem_separated, List.not_mem_nil, false_imp_iff,
      implies_true, hopen, hclose, true_and, and_true]

@[simp] theorem written_obj {members : List (Option String × Json)} :
    (obj members).Written ↔
      ∀ member ∈ members, member.1.isSome = true ∧ member.2.Written := by
  have hopen : Token.openObject.Written := trivial
  have hclose : Token.closeObject.Written := trivial
  have hcolon : Token.colon.Written := trivial
  have hname : ∀ name, (Token.str name).Written ↔ name.isSome = true := fun _ => Iff.rfl
  cases members with
  | nil => simp [Written, tokens, memberTokens, hopen, hclose]
  | cons member members =>
    simp only [Written, tokens, memberTokens_cons, memberToken, List.cons_append,
      List.forall_mem_cons, List.forall_mem_append, forall_mem_separated,
      List.not_mem_nil, false_imp_iff, implies_true, hopen, hclose, hcolon, hname, true_and,
      and_true, and_assoc]

@[simp] theorem written_object {members : List (String × Json)} :
    (object members).Written ↔ ∀ member ∈ members, member.2.Written := by
  rw [object, written_obj, List.forall_mem_map]
  simp

@[simp] theorem written_tagged {tag : String} {value : Json} :
    (tagged tag value).Written ↔ value.Written := by
  simp [tagged]

theorem spaced_cons {t : Token} (ht : t.isNumber = false) {ts : List Token} (hts : Spaced ts) :
    Spaced (t :: ts) :=
  List.isChain_cons.mpr ⟨fun u _ hnumber => by simp [ht] at hnumber, hts⟩

theorem spaced_append_cons {t : Token} (ht : t.isNumber = false) {ts us : List Token}
    (hts : Spaced ts) (hus : Spaced us) : Spaced (ts ++ t :: us) := by
  refine List.isChain_append.mpr ⟨hts, spaced_cons ht hus, ?_⟩
  rintro _ _ _ ⟨⟩ _
  exact ht

/-- What is written between commas, up to a closing bracket, is spaced if its
parts are. -/
theorem spaced_separated {α : Type} {f : α → List Token} {xs : List α}
    (hxs : ∀ x ∈ xs, Spaced (f x)) {close : Token} (hclose : close.isNumber = false)
    {first : List Token} (hfirst : Spaced first) :
    Spaced (first ++ (xs.flatMap fun x => .comma :: f x) ++ [close]) := by
  induction xs generalizing first with
  | nil =>
    rw [List.flatMap_nil, List.append_nil]
    exact spaced_append_cons hclose hfirst .nil
  | cons x xs ih =>
    obtain ⟨hx, hxs⟩ := List.forall_mem_cons.mp hxs
    rw [List.flatMap_cons, List.cons_append, List.append_assoc, List.cons_append]
    exact spaced_append_cons rfl hfirst (ih hxs hx)

/-- **Numbers of a tree do not stand side by side.** -/
theorem spaced_tokens (j : Json) : Spaced j.tokens := by
  induction j using childInduction with
  | step j ih =>
    cases j with
    | arr items =>
      refine spaced_cons rfl ?_
      cases items with
      | nil => exact spaced_cons rfl .nil
      | cons item items =>
        obtain ⟨hitem, hitems⟩ := List.forall_mem_cons.mp ih
        rw [itemTokens_cons]
        exact spaced_separated hitems rfl hitem
    | obj members =>
      refine spaced_cons rfl ?_
      have hmember : ∀ member ∈ members, Spaced (memberToken member) := fun member hmember =>
        spaced_cons rfl (spaced_cons rfl (ih member.2 (List.mem_map_of_mem hmember)))
      cases members with
      | nil => exact spaced_cons rfl .nil
      | cons member members =>
        obtain ⟨hfirst, hmembers⟩ := List.forall_mem_cons.mp hmember
        rw [memberTokens_cons]
        exact spaced_separated hmembers rfl hfirst
    | _ => exact List.isChain_singleton _

theorem build?_tokens_nil (j : Json) : build? none [] j.tokens = some j := by
  have hbuilt := build?_tokens j [] []
  rw [List.append_nil] at hbuilt
  rw [hbuilt, build?]

/-- **A tree is read from every text that spreads its tokens.** -/
theorem parse?_of_spread {j : Json} {s : String} (h : Spread j.tokens s.toList) :
    parse? s = some j := by
  unfold parse?
  rw [scan?_spread h, Option.bind_some, build?_tokens_nil]

theorem spread_compact {j : Json} (h : j.Written) : Spread j.tokens j.compact.toList := by
  rw [compact, String.toList_ofList]
  exact spread_texts h (spaced_tokens j)

/-- **A tree is read from its compact text.** -/
theorem parse?_compact {j : Json} (h : j.Written) : parse? j.compact = some j :=
  parse?_of_spread (spread_compact h)

/-- **A tree is read from the bytes of its compact text.** -/
theorem ofBytes?_compact {j : Json} (h : j.Written) :
    ofBytes? (Text.utf8 j.compact) = some j := by
  have hletters : Text.letters (Text.utf8 j.compact) = j.compact.toList.map some := by
    unfold Text.letters
    rw [Text.ofUtf8?_utf8]
  unfold ofBytes?
  rw [hletters, scan?_spread (spread_compact h), Option.bind_some, build?_tokens_nil]

end Interlink.Json
