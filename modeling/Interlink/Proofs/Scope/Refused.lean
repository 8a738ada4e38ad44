import Std.Data.HashMap.Lemmas
import Interlink.Proofs.Document.Faults
import Interlink.Proofs.Scope.Models

/-!
# Definitions that cannot be declared

Declaring stops at the first definition that has something wrong with it: its
name, one of its parts, or that its name is taken. What is reported then is true
of the document (`Scope.explains_defineAll`).

Whether a name is taken is looked up in tables that have the places of what came
before. A table remembers nothing else (`Remembers`), so what it finds for an
element is the place of an earlier element with the same key
(`Remembers.exists_earlier`).
-/

namespace Interlink

/-! ## Places of earlier elements -/

section Remembers

variable {α κ : Type} [BEq κ] [Hashable κ] {key : α → κ} {span : α → Span}
  {before after : List α} {table : Std.HashMap κ Span}

/-- **A table remembers the places of elements** by a key of theirs. -/
def Remembers (key : α → κ) (span : α → Span) (before : List α)
    (table : Std.HashMap κ Span) : Prop :=
  ∀ k first, table[k]? = some first → ∃ x ∈ before, key x = k ∧ span x = first

theorem remembers_empty [EquivBEq κ] [LawfulHashable κ] :
    Remembers key span [] (∅ : Std.HashMap κ Span) := by
  intro k first hfirst
  simp at hfirst

theorem Remembers.insert [LawfulBEq κ] [LawfulHashable κ]
    (h : Remembers key span before table) (x : α) :
    Remembers key span (before ++ [x]) (table.insert (key x) (span x)) := by
  intro k first hfirst
  rw [Std.HashMap.getElem?_insert] at hfirst
  split at hfirst
  next hkey =>
    exact ⟨x, List.mem_append_right _ (List.mem_singleton_self x), eq_of_beq hkey,
      Option.some.inj hfirst⟩
  next =>
    obtain ⟨y, hy, hy'⟩ := h k first hfirst
    exact ⟨y, List.mem_append_left _ hy, hy'⟩

/-- **What is found for an element is the place of an earlier one** with the same
key. -/
theorem Remembers.exists_earlier (h : Remembers key span before table) {y : α}
    {first : Span} (hfirst : table[key y]? = some first) :
    ∃ x, [x, y].Sublist (before ++ y :: after) ∧ key x = key y
      ∧ span x = first := by
  obtain ⟨x, hx, hkey, hspan⟩ := h (key y) first hfirst
  have hboth : ([x] ++ [y]).Sublist (before ++ y :: after) :=
    (List.singleton_sublist.mpr hx).append
      (List.singleton_sublist.mpr List.mem_cons_self)
  exact ⟨x, hboth, hkey, hspan⟩

end Remembers

/-! ## Parts -/

section Parts

variable {owner service : String} {fault : CompileError}

/-- **The items of an enum are not numbered** if there is something wrong with
one of them, or if two have one name. -/
theorem numberItems_eq_error {next : Int} {seen : Std.HashMap String Span}
    {before items : List EnumItem}
    (hseen : Remembers EnumItem.name EnumItem.span before seen)
    (herr : numberItems owner next seen items = .error fault) :
    (∃ item ∈ items, ∃ malformation,
        fault = .invalid (qualified owner item.name) item.span malformation)
      ∨ ∃ x y, [x, y].Sublist (before ++ items) ∧ x.name = y.name
        ∧ fault = .duplicate (qualified owner y.name) y.span x.span := by
  induction items generalizing next seen before with
  | nil => cases herr
  | cons item items ih =>
    rw [numberItems] at herr
    split at herr
    next =>
      cases herr
      exact .inl ⟨item, List.mem_cons_self, _, rfl⟩
    next =>
      split at herr
      next first hfirst =>
        cases herr
        obtain ⟨x, hboth, hname, rfl⟩ := hseen.exists_earlier hfirst
        exact .inr ⟨x, item, hboth, hname, rfl⟩
      next =>
        split at herr
        next =>
          cases herr
          exact .inl ⟨item, List.mem_cons_self, _, rfl⟩
        next n _ =>
          split at herr
          next fault' hrest =>
            cases herr
            rcases ih (hseen.insert item) hrest with ⟨i, hi, hi'⟩ | ⟨x, y, hboth, hxy⟩
            · exact .inl ⟨i, List.mem_cons_of_mem _ hi, hi'⟩
            · rw [List.append_assoc] at hboth
              exact .inr ⟨x, y, hboth, hxy⟩
          next => cases herr

/-- The fields of a list are not numbered if there is something wrong with one of
them. -/
theorem numberFields_eq_error {used : Nat} {fields : List Field}
    (herr : numberFields owner used fields = .error fault) :
    ∃ f ∈ fields, ∃ malformation, fault = .invalid owner f.span malformation := by
  induction fields generalizing used with
  | nil => cases herr
  | cons f fields ih =>
    have hrest : ∀ {used : Nat}, numberFields owner used fields = .error fault →
        ∃ g ∈ f :: fields, ∃ malformation,
          fault = .invalid owner g.span malformation := by
      intro used hrest
      obtain ⟨g, hg, hg'⟩ := ih hrest
      exact ⟨g, List.mem_cons_of_mem _ hg, hg'⟩
    rw [numberFields] at herr
    split at herr
    next =>
      cases herr
      exact ⟨f, List.mem_cons_self, _, rfl⟩
    next =>
      split at herr
      next =>
        split at herr
        next fault' hfault =>
          cases herr
          exact hrest hfault
        next => cases herr
      next =>
        split at herr
        next =>
          split at herr
          next fault' hfault =>
            cases herr
            exact hrest hfault
          next => cases herr
        next =>
          cases herr
          exact ⟨f, List.mem_cons_self, _, rfl⟩

/-- A function is not numbered if it has no name, or if there is something wrong
with a parameter or a declared exception. -/
theorem FunctionDecl.number_eq_error {f : FunctionDecl}
    (herr : f.number service = .error fault) :
    ∃ name malformation, fault = .invalid name f.span malformation
      ∨ ∃ g, (g ∈ f.parameters ∨ g ∈ f.exceptions)
        ∧ fault = .invalid name g.span malformation := by
  unfold FunctionDecl.number at herr
  split at herr
  next =>
    cases herr
    exact ⟨_, _, .inl rfl⟩
  next =>
    rcases bind_eq_error.mp herr with hparameters | ⟨parameters, -, herr⟩
    · obtain ⟨g, hg, m, hfault⟩ := numberFields_eq_error hparameters
      exact ⟨_, m, .inr ⟨g, .inl hg, hfault⟩⟩
    · rcases bind_eq_error.mp herr with hexceptions | ⟨exceptions, -, herr⟩
      · obtain ⟨g, hg, m, hfault⟩ := numberFields_eq_error hexceptions
        exact ⟨_, m, .inr ⟨g, .inr hg, hfault⟩⟩
      · exact absurd herr pure_ne_error

/-- **A definition that declares no body** has something wrong with one of its
parts. -/
theorem Definition.explains_toBody {d : Document} {x : Definition}
    (hx : x ∈ d.definitions) (herr : x.toBody = .error fault) :
    d.Explains fault := by
  unfold Definition.toBody at herr
  split at herr
  next => cases herr
  next => cases herr
  next items hbody =>
    rcases numberItems_eq_error remembers_empty (map_eq_error.mp herr) with
      ⟨item, hitem, malformation, rfl⟩ | ⟨y, z, hboth, hname, rfl⟩
    · exact Document.HasSpan.item hx hbody hitem
    · exact Document.Repeats.items hx hbody hboth hname
  next kind fields hbody =>
    obtain ⟨f, hf, malformation, rfl⟩ := numberFields_eq_error (map_eq_error.mp herr)
    exact Document.HasSpan.field hx (.struct hbody) hf
  next functions parent hbody =>
    rcases bind_eq_error.mp herr with hfunctions | ⟨numbered, -, herr⟩
    · obtain ⟨f, hf, hfault⟩ := exists_of_mapM_eq_error hfunctions
      obtain ⟨name, malformation, rfl | ⟨g, hg | hg, rfl⟩⟩ :=
        FunctionDecl.number_eq_error hfault
      · exact Document.HasSpan.function hx hbody hf
      · exact Document.HasSpan.field hx (.parameters hbody hf) hg
      · exact Document.HasSpan.field hx (.exceptions hbody hf) hg
    · exact absurd herr pure_ne_error

end Parts

/-! ## Definitions -/

namespace Scope

variable {s : Scope} {d : Document} {x : Definition} {fault : CompileError}

/-- **A definition is not declared** if its name or its number is wrong, if it
declares no body, or if its name is taken. -/
theorem define_eq_error (h : s.IsArena) (herr : s.define x = .error fault) :
    (∃ malformation, fault = .invalid x.name x.span malformation)
      ∨ x.toBody = .error fault
      ∨ ∃ e ∈ s.entities, e.name = x.name
        ∧ fault = .duplicate x.name x.span e.span := by
  obtain ⟨left, herr⟩ := Halt.forget_eq_error.mp herr
  unfold defineOrHalt at herr
  split at herr
  next malformation _ =>
    cases herr
    exact .inl ⟨malformation, rfl⟩
  next =>
    split at herr
    next fault' hbody =>
      cases herr
      exact .inr (.inl hbody)
    next body _ =>
      unfold declareOrHalt at herr
      split at herr
      next id e hnamed =>
        cases herr
        obtain ⟨he, hname⟩ := h.named?_eq_some.mp hnamed
        exact .inr (.inr ⟨e, List.mem_of_getElem? he, hname, rfl⟩)
      next =>
        split at herr
        next => cases herr
        next =>
          cases herr
          exact .inl ⟨_, rfl⟩

/-- **Declaring the rest of the definitions fails** for a reason that is true of
the document. -/
theorem explains_defineAll {before after : List Definition} (h : s.IsArena)
    (hdeclared : List.Forall₂ Definition.DeclaredAs before s.entities)
    (hd : d.definitions = before ++ after)
    (herr : s.defineAll after = .error fault) : d.Explains fault := by
  induction after generalizing s before with
  | nil => cases herr
  | cons x after ih =>
    have hx : x ∈ d.definitions := by
      rw [hd]
      exact List.mem_append_right _ List.mem_cons_self
    unfold defineAll at herr
    cases hdefine : s.define x with
    | error fault' =>
      rw [hdefine] at herr
      cases herr
      rcases define_eq_error h hdefine with
        ⟨malformation, rfl⟩ | hbody | ⟨e, he, hname, rfl⟩
      · exact Document.HasSpan.definition hx
      · exact Definition.explains_toBody hx hbody
      · -- the name was taken by an earlier definition
        obtain ⟨y, hy, hdeclares⟩ := exists_left_of_forall₂ hdeclared he
        have hboth : ([y] ++ [x]).Sublist d.definitions := by
          rw [hd]
          exact (List.singleton_sublist.mpr hy).append
            (List.singleton_sublist.mpr List.mem_cons_self)
        have hrepeats := Document.Repeats.definitions hboth
          (hdeclares.name.symm.trans hname)
        rwa [← hdeclares.span] at hrepeats
    | ok s' =>
      rw [hdefine] at herr
      obtain ⟨-, body, hbody, hfree, -, rfl⟩ := (define_eq_ok h).mp hdefine
      obtain ⟨hdeclares, -⟩ := Definition.toBody_eq_ok hbody
      have hdeclared' : List.Forall₂ Definition.DeclaredAs (before ++ [x])
          (s.push ⟨x.name, x.span, false, body⟩).entities :=
        List.rel_append hdeclared (.cons ⟨rfl, rfl, hdeclares⟩ .nil)
      exact ih (h.push hfree) hdeclared' (by rw [hd, List.append_assoc]; rfl) herr

end Scope

end Interlink
