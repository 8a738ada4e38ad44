import Mathlib.Data.List.Perm.Basic
import Interlink.Proofs.Document.WellFormed

/-!
# The order of definitions

What a document means is said by rules that only ask what names are defined as
(`Document.Defines`). So they hold in every document that defines at least as
much (`Document.Within`): the derivations can be repeated there, rule by rule.
Two documents with the same definitions in different orders are within each
other. They mean the same, and if one of them is well formed, so is the other
(`Document.Reorders.wellFormed`).
-/

namespace Interlink

/-- Fewer steps do not go round in circles either. -/
theorem Acyclic.mono {α : Type} {step step' : α → α → Prop} (h : Acyclic step)
    (hsub : ∀ a b, step' a b → step a b) : Acyclic step' :=
  fun a hcycle => h a (Relation.TransGen.mono hsub a a hcycle)

namespace Document

variable {d d' : Document}

/-! ## Documents within documents -/

/-- **What a document defines is defined in another one** in the same way. -/
def Within (d d' : Document) : Prop :=
  ∀ name body, d.Defines name body → d'.Defines name body

namespace Within

theorem namesType (h : d.Within d') {name : String} (hname : d.NamesType name) :
    d'.NamesType name := by
  obtain ⟨body, hdefines, htype⟩ := hname
  exact ⟨body, h name body hdefines, htype⟩

theorem namesItem (h : d.Within d') {name enumName : String} {n : Int}
    (hname : d.NamesItem name enumName n) : d'.NamesItem name enumName n := by
  obtain ⟨items, item, hspelt, hdefines, hmember⟩ := hname
  exact ⟨items, item, hspelt, h enumName _ hdefines, hmember⟩

theorem namesConstant (h : d.Within d') {name : String}
    (hname : d.NamesConstant name) : d'.NamesConstant name := by
  rcases hname with ⟨type, value, hdefines⟩ | ⟨enumName, n, hitem⟩
  · exact .inl ⟨type, value, h name _ hdefines⟩
  · exact .inr ⟨enumName, n, h.namesItem hitem⟩

theorem reaches (h : d.Within d') {t t' : TypeExpr} (ht : d.Reaches t t') :
    d'.Reaches t t' := by
  induction ht with
  | primitive p => exact .primitive p
  | list element => exact .list element
  | set element => exact .set element
  | map key value => exact .map key value
  | named hdefines hfinal => exact .named (h _ _ hdefines) hfinal
  | typedef hdefines _ ih => exact .typedef (h _ _ hdefines) ih

theorem reachesBody (h : d.Within d') {t : TypeExpr} {name : String}
    {body : Definition.Body} (ht : d.ReachesBody t name body) :
    d'.ReachesBody t name body := by
  obtain ⟨m, hname, hreaches, hdefines⟩ := ht
  exact ⟨m, hname, h.reaches hreaches, h name body hdefines⟩

/-- **A value still becomes what it becomes** at a type. -/
theorem coerces (h : d.Within d') {t : TypeExpr} {v u : Value}
    (hv : d.Coerces t v u) : d'.Coerces t v u := by
  induction hv with
  | primitive htype hconverts => exact .primitive (h.reaches htype) hconverts
  | list htype hsequence hlength _ ih =>
    exact .list (h.reaches htype) hsequence hlength ih
  | set htype hsequence hlength _ ih =>
    exact .set (h.reaches htype) hsequence hlength ih
  | map htype hlength _ _ ihk ihv => exact .map (h.reaches htype) hlength ihk ihv
  | item n htype => exact .item n (h.reachesBody htype)
  | number htype hnumber hmember =>
    exact .number (h.reachesBody htype) hnumber hmember
  | same fields htype => exact .same fields (h.reachesBody htype)
  | struct htype hkeys hknown _ hdistinct hsingle hrequired ih =>
    exact .struct (h.reachesBody htype) hkeys hknown ih hdistinct hsingle hrequired

/-- **An expression still stands for what it stands for.** -/
theorem looseValue (h : d.Within d') {expr : ConstExpr} {v : Value}
    (hv : d.LooseValue expr v) : d'.LooseValue expr v := by
  induction hv with
  | bool b => exact .bool b
  | int n => exact .int n
  | double x => exact .double x
  | string s => exact .string s
  | list hlength _ ih => exact .list hlength ih
  | map hlength _ _ ihk ihv => exact .map hlength ihk ihv
  | constant hdefines _ hcoerces ih =>
    exact .constant (h _ _ hdefines) ih (h.coerces hcoerces)
  | item hnames => exact .item (h.namesItem hnames)

theorem hasValue (h : d.Within d') {t : TypeExpr} {expr : ConstExpr} {v : Value}
    (hv : d.HasValue t expr v) : d'.HasValue t expr v := by
  obtain ⟨loose, hloose, hcoerces⟩ := hv
  exact ⟨loose, h.looseValue hloose, h.coerces hcoerces⟩

theorem constantMentions (h : d.Within d') {a b : String}
    (hab : d.ConstantMentions a b) : d'.ConstantMentions a b := by
  obtain ⟨type, expr, hdefines, hmember⟩ := hab
  exact ⟨type, expr, h a _ hdefines, hmember⟩

theorem typedefMentions (h : d.Within d') {a b : String}
    (hab : d.TypedefMentions a b) : d'.TypedefMentions a b := by
  obtain ⟨m, hdefines, hname⟩ := hab
  exact ⟨m, h a _ hdefines, hname⟩

theorem serviceExtends (h : d.Within d') {a b : String} (hab : d.Extends a b) :
    d'.Extends a b := by
  obtain ⟨functions, m, hdefines, hname⟩ := hab
  exact ⟨functions, m, h a _ hdefines, hname⟩

end Within

/-! ## Definitions in another order -/

/-- **Two documents with the same headers and the same definitions**, the
definitions in any order. -/
structure Reorders (d d' : Document) : Prop where
  /-- The headers are the same. -/
  headers : d'.headers = d.headers
  /-- The definitions are the same, in some order. -/
  definitions : d.definitions.Perm d'.definitions

namespace Reorders

theorem symm (h : d.Reorders d') : d'.Reorders d :=
  ⟨h.headers.symm, h.definitions.symm⟩

theorem mem (h : d.Reorders d') {x : Definition} :
    x ∈ d'.definitions ↔ x ∈ d.definitions :=
  h.definitions.symm.mem_iff

theorem within (h : d.Reorders d') : d.Within d' := by
  rintro name body ⟨x, hx, hname, hbody⟩
  exact ⟨x, h.mem.mpr hx, hname, hbody⟩

/-- **Whether a document is well formed does not depend on the order of its
definitions.** -/
theorem wellFormed (h : d.Reorders d') (hd : d.WellFormed) : d'.WellFormed := by
  have hin : d.Within d' := h.within
  have hback : d'.Within d := h.symm.within
  constructor
  case selfContained =>
    rw [h.headers]
    exact hd.selfContained
  case few => exact h.definitions.length_eq ▸ hd.few
  case plain => exact fun x hx => hd.plain x (h.mem.mp hx)
  case distinct => exact (h.definitions.map _).nodup_iff.mp hd.distinct
  case items => exact fun name items hx => hd.items name items (hback _ _ hx)
  case numberable => exact fun x hx => hd.numberable x (h.mem.mp hx)
  case fields => exact fun x hx => hd.fields x (h.mem.mp hx)
  case functionsNamed =>
    exact fun name fs parent hx => hd.functionsNamed name fs parent (hback _ _ hx)
  case functionsDistinct =>
    exact fun name fs parent hx => hd.functionsDistinct name fs parent (hback _ _ hx)
  case unions => exact fun name fields hx => hd.unions name fields (hback _ _ hx)
  case oneway =>
    exact fun name fs parent hx => hd.oneway name fs parent (hback _ _ hx)
  case types => exact fun x hx m hm => hin.namesType (hd.types x (h.mem.mp hx) m hm)
  case parents =>
    intro name fs m hx
    obtain ⟨fs', parent', hparent⟩ := hd.parents name fs m (hback _ _ hx)
    exact ⟨fs', parent', hin _ _ hparent⟩
  case exceptions =>
    intro name fs parent hx f hf y hy
    obtain ⟨exception, fields, hreaches⟩ :=
      hd.exceptions name fs parent (hback _ _ hx) f hf y hy
    exact ⟨exception, fields, hin.reachesBody hreaches⟩
  case constants =>
    exact fun x hx m hm => hin.namesConstant (hd.constants x (h.mem.mp hx) m hm)
  case constantsEnd => exact hd.constantsEnd.mono fun _ _ => hback.constantMentions
  case typedefsEnd => exact hd.typedefsEnd.mono fun _ _ => hback.typedefMentions
  case servicesEnd => exact hd.servicesEnd.mono fun _ _ => hback.serviceExtends
  case values =>
    intro name type expr hx
    obtain ⟨v, hv⟩ := hd.values name type expr (hback _ _ hx)
    exact ⟨v, hin.hasValue hv⟩
  case defaults =>
    intro x hx f hf expr hexpr
    obtain ⟨v, hv⟩ := hd.defaults x (h.mem.mp hx) f hf expr hexpr
    exact ⟨v, hin.hasValue hv⟩

end Reorders

end Document

end Interlink
