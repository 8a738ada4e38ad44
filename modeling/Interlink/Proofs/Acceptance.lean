import Interlink.Proofs.Evaluation
import Interlink.Proofs.Link.Pass

/-!
# Which documents are compiled

A document is compiled exactly if it is well formed
(`Document.exists_compile_iff_wellFormed`). Compiling finds faults where it
meets them: in the headers, while declaring, and in three passes that bind and
check one entity after the other. `Document.WellFormed` is a list of
conditions on the document, in no order at all.

Two of the conditions that are asked for everywhere follow from others. Where
all constants have values, no constant is made of itself; and where names stand
for types and typedefs do not go round in circles, every typedef reaches
something (`WellFormed.exists_reaches`).
-/

namespace Interlink

/-! ## Headers -/

/-- Headers pass when none of them asks for another document. -/
theorem forM_check_eq_ok {headers : List Header} :
    headers.forM Header.check = .ok () ↔
      ∀ path span, Header.inclusion path span ∉ headers := by
  rw [forM_eq_ok]
  constructor
  · intro h path span hmem
    cases h _ hmem
  · intro h header hmem
    cases header with
    | inclusion path span => exact absurd hmem (h path span)
    | naming => rfl

namespace Scope.Models

variable {s : Scope} {d : Document}

/-! ## Chains that end -/

/-- **Where nothing goes round in circles, chains end**, since there are only so
many definitions. -/
theorem acc_of_openTrail (h : s.Models d) {step : String → String → Prop}
    (hends : Acyclic step)
    (hdefined : ∀ a b, step a b → ∃ body, d.Defines b body)
    {left : Nat} {trail : Trail} {id : EntityId} {e : Entity}
    (he : s.entity? id = some e) (hopen : s.OpenTrail step left trail e.name) :
    Acc (fun b a => step a b) e.name := by
  -- a trail that is still open has steps left, and each entity uses one up
  induction left using Nat.strong_induction_on generalizing trail id e with
  | _ left ih =>
    obtain ⟨-, k, rfl, henter⟩ := hopen.enter (hends e.name) he
    refine .intro _ fun b hb => ?_
    obtain ⟨body, hdefines⟩ := hdefined e.name b hb
    obtain ⟨j, e', he', rfl, -⟩ := h.exists_entity hdefines
    exact ih k (Nat.lt_succ_self k) he' (henter e'.name hb)

/-- Chains from a definition end. -/
theorem acc_of_acyclic (h : s.Models d) {step : String → String → Prop}
    (hends : Acyclic step)
    (hdefined : ∀ a b, step a b → ∃ body, d.Defines b body)
    {name : String} {body : Definition.Body} (hdefines : d.Defines name body) :
    Acc (fun b a => step a b) name := by
  obtain ⟨id, e, he, rfl, -⟩ := h.exists_entity hdefines
  exact h.acc_of_openTrail hends hdefined he openTrail_nil

end Scope.Models

namespace Document

variable {d : Document}

/-- A type that is no name reaches itself. -/
theorem reaches_or_named (d : Document) (t : TypeExpr) :
    (∃ t', d.Reaches t t') ∨ ∃ m, t = .named m := by
  cases t with
  | primitive p => exact .inl ⟨_, .primitive p⟩
  | list element => exact .inl ⟨_, .list element⟩
  | set element => exact .inl ⟨_, .set element⟩
  | map key value => exact .inl ⟨_, .map key value⟩
  | named m => exact .inr ⟨m, rfl⟩

/-- A name from which chains of typedefs end reaches something, if names stand
for types. -/
theorem exists_reaches_named
    (htypes : ∀ name m, d.Defines name (.typedef (.named m)) →
      d.NamesType m.name)
    {name : String} (hacc : Acc (fun b a => d.TypedefMentions a b) name)
    {m : Mention} (hname : m.name = name) (hm : d.NamesType m.name) :
    ∃ t, d.Reaches (.named m) t := by
  induction hacc generalizing m with
  | intro name _ ih =>
    subst hname
    obtain ⟨body, hdefines, -⟩ := hm
    cases body with
    | typedef target =>
      have htarget : ∃ t, d.Reaches target t := by
        rcases d.reaches_or_named target with hreaches | ⟨m', rfl⟩
        · exact hreaches
        · exact ih m'.name ⟨m', hdefines, rfl⟩ rfl (htypes m.name m' hdefines)
      obtain ⟨t, hreaches⟩ := htarget
      exact ⟨t, .typedef hdefines hreaches⟩
    | _ => exact ⟨_, .named hdefines fun _ heq => by cases heq⟩

namespace WellFormed

theorem namesType (hd : d.WellFormed) {name : String} {x : Definition.Body}
    (hx : d.Defines name x) {m : Mention} (hm : m ∈ x.typeMentions) :
    d.NamesType m.name := by
  obtain ⟨y, hy, -, rfl⟩ := hx
  exact hd.types y hy m hm

/-- **A type reaches something**, if its names stand for types. -/
theorem exists_reaches (hd : d.WellFormed) {s : Scope} (h : s.Models d)
    {t : TypeExpr} (ht : ∀ m ∈ t.mentions, d.NamesType m.name) :
    ∃ t', d.Reaches t t' := by
  have htypes : ∀ name m, d.Defines name (.typedef (.named m)) →
      d.NamesType m.name :=
    fun name m hdefines => hd.namesType hdefines (List.mem_singleton_self m)
  rcases d.reaches_or_named t with hreaches | ⟨m, rfl⟩
  · exact hreaches
  · have hm := ht m (List.mem_singleton_self m)
    have ⟨body, hdefines, _⟩ := hm
    refine exists_reaches_named htypes ?_ rfl hm
    refine h.acc_of_acyclic hd.typedefsEnd (fun a b hab => ?_) hdefines
    obtain ⟨m', hdefines', rfl⟩ := hab
    exact (htypes a m' hdefines').imp fun body hbody => hbody.1

/-- **The references of a well-formed document can be bound.** -/
theorem bindable (hd : d.WellFormed) {name : String} {x : Definition.Body}
    (hx : d.Defines name x) : x.Bindable d := by
  refine ⟨fun m hm => hd.namesType hx hm, fun m hm => ?_, ?_, ?_⟩
  · obtain ⟨y, hy, -, rfl⟩ := hx
    exact hd.constants y hy m hm
  · rintro functions m rfl
    exact hd.parents name functions m hx
  · rintro functions parent rfl
    exact hd.exceptions name functions parent hx

/-- **The definitions of a well-formed document pass their checks.** -/
theorem checked (hd : d.WellFormed) {s : Scope} (h : s.Models d) {name : String}
    {x : Definition.Body} (hx : d.Defines name x) : x.Checked d name := by
  have hfields : ∀ fields ∈ x.fieldLists, Field.Distinct fields := by
    obtain ⟨y, hy, -, rfl⟩ := hx
    exact hd.fields y hy
  have hdefaults : ∀ f ∈ x.valuedFields, ∀ expr, f.default = some expr →
      ∃ v, d.HasValue f.type expr v := by
    obtain ⟨y, hy, -, rfl⟩ := hx
    exact hd.defaults y hy
  cases x with
  | const type expr => exact hd.values name type expr hx
  | typedef target => exact hd.exists_reaches h fun m hm => hd.namesType hx hm
  | enum items => trivial
  | struct kind fields =>
    refine ⟨hfields fields (List.mem_singleton_self _), fun hkind => ?_, hdefaults⟩
    subst hkind
    exact hd.unions name fields hx
  | service functions parent =>
    refine ⟨hd.functionsDistinct name functions parent hx, fun f hf => ?_, ?_⟩
    · exact ⟨hfields _ (List.mem_flatMap.mpr ⟨f, hf, by simp⟩),
        hfields _ (List.mem_flatMap.mpr ⟨f, hf, by simp⟩),
        hd.oneway name functions parent hx f hf,
        fun p hp => hdefaults p (List.mem_flatMap.mpr ⟨f, hf, hp⟩)⟩
    · refine h.acc_of_acyclic hd.servicesEnd (fun a b hab => ?_) hx
      obtain ⟨functions', m, hdefines, rfl⟩ := hab
      obtain ⟨functions'', parent'', hparent⟩ := hd.parents a functions' m hdefines
      exact ⟨_, hparent⟩

/-- **The definitions of a well-formed document can be declared.** -/
theorem declarable (hd : d.WellFormed) {x : Definition} (hx : x ∈ d.definitions) :
    x.body.Declarable := by
  have hdefines : d.Defines x.name x.body := ⟨x, hx, rfl, rfl⟩
  have hnumberable := hd.numberable x hx
  generalize x.body = body at hdefines hnumberable
  cases body with
  | enum items => exact hd.items x.name items hdefines
  | struct kind fields => exact hnumberable fields (List.mem_singleton_self _)
  | service functions parent =>
    intro f hf
    exact ⟨hd.functionsNamed x.name functions parent hdefines f hf,
      hnumberable _ (List.mem_flatMap.mpr ⟨f, hf, by simp⟩),
      hnumberable _ (List.mem_flatMap.mpr ⟨f, hf, by simp⟩)⟩
  | _ => trivial

end WellFormed

/-- The lists of fields of a definition that can be declared can be
numbered. -/
theorem numberable_of_declarable {x : Definition.Body} (h : x.Declarable) :
    ∀ fields ∈ x.fieldLists, Field.Numberable fields := by
  intro fields hfields
  cases x with
  | struct kind declared =>
    cases List.mem_singleton.mp hfields
    exact h
  | service functions parent =>
    obtain ⟨f, hf, hfields⟩ := List.mem_flatMap.mp hfields
    obtain ⟨-, hparameters, hexceptions⟩ := h f hf
    rcases List.mem_pair.mp hfields with rfl | rfl
    · exact hparameters
    · exact hexceptions
  | _ => exact absurd hfields List.not_mem_nil

/-- The lists of fields of a definition that passes are told apart. -/
theorem distinct_of_checked {name : String} {x : Definition.Body}
    (h : x.Checked d name) : ∀ fields ∈ x.fieldLists, Field.Distinct fields := by
  intro fields hfields
  cases x with
  | struct kind declared =>
    cases List.mem_singleton.mp hfields
    exact h.1
  | service functions parent =>
    obtain ⟨f, hf, hfields⟩ := List.mem_flatMap.mp hfields
    have hsound := h.2.1 f hf
    rcases List.mem_pair.mp hfields with rfl | rfl
    · exact hsound.parameters
    · exact hsound.exceptions
  | _ => exact absurd hfields List.not_mem_nil

/-- The defaults of a definition that passes have values. -/
theorem hasValue_of_checked {name : String} {x : Definition.Body}
    (h : x.Checked d name) : ∀ f ∈ x.valuedFields, ∀ expr,
      f.default = some expr → ∃ v, d.HasValue f.type expr v := by
  intro f hf
  cases x with
  | struct kind declared => exact h.2.2 f hf
  | service functions parent =>
    obtain ⟨g, hg, hf⟩ := List.mem_flatMap.mp hf
    exact (h.2.1 g hg).defaults f hf
  | _ => exact absurd hf List.not_mem_nil

/-- **A document is well formed** if its definitions can be declared, can be
bound and pass their checks. -/
theorem wellFormed_of_models {s : Scope} (h : s.Models d)
    (hheaders : ∀ path span, Header.inclusion path span ∉ d.headers)
    (hfew : d.definitions.length ≤ 0x100000000)
    (hdeclarable : ∀ x ∈ d.definitions, x.body.Declarable)
    (hbindable : ∀ name x, d.Defines name x → x.Bindable d)
    (hchecked : ∀ name x, d.Defines name x → x.Checked d name) :
    d.WellFormed where
  selfContained := hheaders
  few := hfew
  plain := h.plain
  distinct := h.names ▸ h.arena.distinct
  items := by
    rintro name items ⟨x, hx, -, hbody⟩
    exact (hbody ▸ hdeclarable x hx :)
  numberable x hx := numberable_of_declarable (hdeclarable x hx)
  fields x hx := distinct_of_checked (hchecked x.name x.body ⟨x, hx, rfl, rfl⟩)
  functionsNamed := by
    rintro name functions parent ⟨x, hx, -, hbody⟩ f hf
    exact ((hbody ▸ hdeclarable x hx :) f hf).1
  functionsDistinct name functions parent hx := (hchecked name _ hx).1
  unions name fields hx := (hchecked name _ hx).2.1 rfl
  oneway name functions parent hx f hf := ((hchecked name _ hx).2.1 f hf).oneway
  types x hx := (hbindable x.name x.body ⟨x, hx, rfl, rfl⟩).types
  parents name functions m hx := (hbindable name _ hx).parent functions m rfl
  exceptions name functions parent hx :=
    (hbindable name _ hx).exceptions functions parent rfl
  constants x hx := (hbindable x.name x.body ⟨x, hx, rfl, rfl⟩).constants
  -- a chain ends where something is found at its end
  constantsEnd := h.acyclic_constantMentions fun name type expr => hchecked name _
  typedefsEnd := by
    refine acyclic_of_acc fun a => .intro _ fun b hb => ?_
    obtain ⟨m, hdefines, rfl⟩ := hb
    obtain ⟨t, hreaches⟩ := hchecked a _ hdefines
    exact h.acc_of_reaches hreaches rfl
  servicesEnd := Scope.acyclic_extends hchecked
  values name type expr hx := hchecked name _ hx
  defaults x hx := hasValue_of_checked (hchecked x.name x.body ⟨x, hx, rfl, rfl⟩)

/-! ## Compiling -/

/-- **What compiling does**: headers, declaring, linking. -/
theorem compile_eq_ok {name : String} {c : Compiled} :
    d.compile name = .ok c ↔
      d.headers.forM Header.check = .ok ()
        ∧ ∃ s, (Scope.empty name).defineAll d.definitions = .ok s
          ∧ s.link = .ok (c.scope, c.warnings) := by
  unfold compile
  simp only [bind_eq_ok]
  constructor
  · rintro ⟨⟨⟩, hheaders, s, hs, hlink⟩
    refine ⟨hheaders, s, hs, ?_⟩
    cases hok : s.link with
    | error halt =>
      rw [hok] at hlink
      cases hlink
    | ok r =>
      rw [hok] at hlink
      cases hlink
      rfl
  · rintro ⟨hheaders, s, hs, hlink⟩
    exact ⟨⟨⟩, hheaders, s, hs, by rw [hlink]; rfl⟩

/-- **What can be declared**: definitions with plain and different names whose
parts can be numbered, and not too many of them. -/
theorem exists_defineAll_empty (name : String) {definitions : List Definition} :
    (∃ s, (Scope.empty name).defineAll definitions = .ok s) ↔
      (∀ x ∈ definitions, IsPlain x.name ∧ x.body.Declarable)
        ∧ (definitions.map Definition.name).Nodup
        ∧ definitions.length ≤ 0x100000000 := by
  rw [Scope.exists_defineAll (Scope.isArena_empty name) (Nat.zero_le _)]
  simp [Scope.empty]

/-- **What is compiled is well formed.** -/
theorem wellFormed_of_compile {name : String} {c : Compiled}
    (hok : d.compile name = .ok c) : d.WellFormed := by
  obtain ⟨hheaders, s, hs, hlink⟩ := compile_eq_ok.mp hok
  have h := Scope.models_of_defineAll hs
  obtain ⟨hdeclarable, -, hfew⟩ := (exists_defineAll_empty name).mp ⟨s, hs⟩
  have hall := (Scope.exists_link h).mp ⟨_, _, hlink⟩
  exact wellFormed_of_models h (forM_check_eq_ok.mp hheaders) hfew
    (fun x hx => (hdeclarable x hx).2) (fun name x hx => (hall name x hx).1)
    fun name x hx => (hall name x hx).2

/-- **What is well formed is compiled.** -/
theorem WellFormed.exists_compile (hd : d.WellFormed) (name : String) :
    ∃ c, d.compile name = .ok c := by
  obtain ⟨s, hs⟩ := (exists_defineAll_empty name).mpr
    ⟨fun x hx => ⟨hd.plain x hx, hd.declarable hx⟩, hd.distinct, hd.few⟩
  have h := Scope.models_of_defineAll hs
  obtain ⟨s', warnings, hlink⟩ := (Scope.exists_link h).mpr
    fun name x hx => ⟨hd.bindable hx, hd.checked h hx⟩
  exact ⟨⟨s', warnings⟩, compile_eq_ok.mpr
    ⟨forM_check_eq_ok.mpr hd.selfContained, s, hs, hlink⟩⟩

/-- **A document is compiled exactly if it is well formed.** -/
theorem exists_compile_iff_wellFormed (d : Document) (name : String) :
    (∃ c, d.compile name = .ok c) ↔ d.WellFormed :=
  ⟨fun ⟨_, hok⟩ => wellFormed_of_compile hok, fun hd => hd.exists_compile name⟩

/-! ## A document that is compiled -/

/-- **A small document** with something of everything: a constant of a type
that is defined after it, an enum, a struct with a default, and a service that
extends another and has a parameter with a default. -/
def sample : Document where
  headers := []
  definitions :=
    [⟨"LIMIT", ⟨1, 1⟩, .const (.named ⟨"Count", ⟨1, 7⟩⟩) (.int 3)⟩,
      ⟨"Count", ⟨2, 1⟩, .typedef (.primitive .i32)⟩,
      ⟨"Color", ⟨3, 1⟩, .enum [⟨"RED", none, ⟨3, 14⟩⟩]⟩,
      ⟨"Point", ⟨4, 1⟩, .struct .struct
        [⟨none, "x", .named ⟨"Count", ⟨5, 3⟩⟩, .required, none, ⟨5, 3⟩⟩,
          ⟨none, "color", .named ⟨"Color", ⟨6, 3⟩⟩, .unmarked,
            some (.reference ⟨"Color.RED", ⟨6, 17⟩⟩), ⟨6, 3⟩⟩]⟩,
      ⟨"Base", ⟨7, 1⟩, .service [] none⟩,
      ⟨"Canvas", ⟨8, 1⟩, .service
        [⟨"paint", [⟨some 1, "at", .named ⟨"Point", ⟨9, 14⟩⟩, .unmarked,
            some (.map [(.string "x", .reference ⟨"LIMIT", ⟨9, 33⟩⟩)]), ⟨9, 14⟩⟩],
          none, [], true, ⟨9, 3⟩⟩] (some ⟨"Base", ⟨8, 24⟩⟩)⟩]

/-- The scope of the small document. -/
def sampleScope : Scope where
  name := "sample"
  entities :=
    [⟨"LIMIT", ⟨1, 1⟩, true, .const (.named ⟨"Count", ⟨1, 7⟩, some 1⟩) (.int 3) (some (.i32 3))⟩,
      ⟨"Count", ⟨2, 1⟩, true, .typedef (.primitive .i32)⟩,
      ⟨"Color", ⟨3, 1⟩, true, .enum [⟨"RED", 0, ⟨3, 14⟩⟩]⟩,
      ⟨"Point", ⟨4, 1⟩, true, .struct .struct
        [⟨-1, "x", .named ⟨"Count", ⟨5, 3⟩, some 1⟩, .required, none, none, ⟨5, 3⟩⟩,
          ⟨-2, "color", .named ⟨"Color", ⟨6, 3⟩, some 2⟩, .unmarked,
            some (.reference ⟨"Color.RED", ⟨6, 17⟩, some (.item 2 0)⟩),
            some (.enum "Color" 0), ⟨6, 3⟩⟩]⟩,
      ⟨"Base", ⟨7, 1⟩, true, .service [] none []⟩,
      ⟨"Canvas", ⟨8, 1⟩, true, .service
        [⟨"paint", [⟨1, "at", .named ⟨"Point", ⟨9, 14⟩, some 3⟩, .unmarked,
            some (.map [(.string "x", .reference ⟨"LIMIT", ⟨9, 33⟩, some (.const 0)⟩)]),
            some (.struct "Point" [("x", .i32 3)]), ⟨9, 14⟩⟩],
          none, [], true, ⟨9, 3⟩⟩] (some ⟨"Base", ⟨8, 24⟩, some 4⟩) [⟨5, 0⟩]⟩]
  symbols := [("LIMIT", 0), ("Count", 1), ("Color", 2), ("Point", 3), ("Base", 4), ("Canvas", 5)]

section

open Evaluation

theorem compile_sample : sample.compile "sample" = .ok ⟨sampleScope, []⟩ := by
  simp [sample, sampleScope]

end

end Document

end Interlink
