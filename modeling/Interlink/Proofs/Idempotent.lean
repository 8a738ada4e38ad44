import Interlink.Proofs.Exchange.Inferred
import Interlink.Proofs.Stored
import Interlink.Proofs.Value.Distinct

/-!
# Coercing again

Coercion changes the form of a value: a whole number gets a width, a text becomes
bytes, a list a set, and a map a struct. What comes out goes in by another way the
second time, and comes out as it is (`Value.coerce_again`). That is so in every scope
and at every type, whether or not the names in it mean anything, and whoever the value
is for: that typedefs can be followed is no matter of the referrer
(`Scope.dealias_of_referrer`).

So a constant that is another constant of the same type has its value. The type may
be written in another way, with other typedefs in front of it or in it
(`Scope.Equates.coerce`).
-/

namespace Interlink

/-! ## Coercing what was coerced -/

/-- What a value became at a primitive type becomes itself. -/
theorem Primitive.Converts.again {p : Primitive} {v u : Value} (h : p.Converts v u) :
    p.Converts u u := by
  cases h with
  | integer _ width same => exact .integer (Value.int?_of_wholeNumber? same) width same
  | bool b => exact .bool b
  | zero => exact .bool false
  | one => exact .bool true
  | double d => exact .double d
  | whole => exact .double _
  | string t => exact .string t
  | text => exact .binary _
  | binary bytes => exact .binary bytes

/-- **What was coerced stays as it is when it is coerced again.** -/
theorem Value.coerce_again {s : Scope} {site : Site} {ty : Ty} {v u : Value}
    (h : v.coerce s site ty = .ok u) (site' : Site) : u.coerce s site' ty = .ok u := by
  -- on the value that is coerced first: its parts become the parts of the other
  induction v using Value.childInduction generalizing ty u with
  | step v ih =>
    obtain ⟨shape, hshape, hcoerces⟩ := coerce_eq_ok.mp h
    refine coerce_eq_ok.mpr ⟨shape, Scope.dealias_of_referrer hshape, ?_⟩
    cases hcoerces with
    | primitive hconverts => exact .primitive hconverts.again
    | list hsequence hitems =>
      refine .list (.inl rfl) (List.forall₂_same.mpr fun y hy => ?_)
      obtain ⟨x, hx, hxy⟩ := exists_left_of_forall₂ hitems hy
      exact ih x (hsequence.mem_children hx) hxy
    | @set element _ items typed hsequence hitems =>
      have hagain : ∀ y ∈ distinct typed, y.coerce s site' element = .ok y := by
        intro y hy
        obtain ⟨x, hx, hxy⟩ := exists_left_of_forall₂ hitems (distinct_subset typed hy)
        exact ih x (hsequence.mem_children hx) hxy
      have hset : CoercesAs s site' (.set element) (.set (distinct typed))
          (.set (distinct (distinct typed))) :=
        .set (.inr rfl) (List.forall₂_same.mpr hagain)
      rwa [distinct_distinct] at hset
    | map hentries =>
      refine .map (List.forall₂_same.mpr fun y hy => ?_)
      obtain ⟨x, hx, hkey, hvalue⟩ := exists_left_of_forall₂ hentries hy
      exact ⟨ih x.1 (key_mem_children hx) hkey, ih x.2 (value_mem_children hx) hvalue⟩
    | item n hbody => exact .item n hbody
    | number hbody _ _ => exact .item _ hbody
    | same fields hbody => exact .same fields hbody
    | struct hbody _ _ _ => exact .same _ hbody

/-- **At types that come to the same a value is coerced alike.** -/
theorem Scope.Equates.coerce {s : Scope} {t u : Ty} (h : s.Equates t u) {site : Site}
    {v x : Value} (hok : v.coerce s site u = .ok x) : v.coerce s site t = .ok x := by
  have hright : ∀ {u shape}, s.shape u = .ok shape → ∀ {v x : Value},
      v.coerce s site u = .ok x → Value.CoercesAs s site shape v x := by
    intro u shape hshape v x hok
    obtain ⟨shape', hshape', hcoerces⟩ := Value.coerce_eq_ok.mp hok
    rw [dealias_of_referrer (dealias_of_shape hshape)] at hshape'
    cases hshape'
    exact hcoerces
  induction h generalizing v x with
  | same left right =>
    exact Value.coerce_eq_ok.mpr
      ⟨_, dealias_of_referrer (dealias_of_shape left), hright right hok⟩
  | list left right _ ih =>
    refine Value.coerce_eq_ok.mpr ⟨_, dealias_of_referrer (dealias_of_shape left), ?_⟩
    cases hright right hok with | list hsequence hitems =>
    exact .list hsequence (hitems.imp fun _ _ => ih)
  | set left right _ ih =>
    refine Value.coerce_eq_ok.mpr ⟨_, dealias_of_referrer (dealias_of_shape left), ?_⟩
    cases hright right hok with | set hsequence hitems =>
    exact .set hsequence (hitems.imp fun _ _ => ih)
  | map left right _ _ ihk ihv =>
    refine Value.coerce_eq_ok.mpr ⟨_, dealias_of_referrer (dealias_of_shape left), ?_⟩
    cases hright right hok with | map hentries =>
    exact .map (hentries.imp fun _ _ hentry => ⟨ihk hentry.1, ihv hentry.2⟩)

namespace Scope.Models

variable {s : Scope} {d : Document} {t t' : TypeExpr} {v u : Value}

/-- What a document says a value becomes at a type becomes itself. -/
theorem coerces_again (h : s.Models d) (hcoerces : d.Coerces t v u) : d.Coerces t u u := by
  have hok : v.coerce s ⟨"", .unknown⟩ t.toTy = .ok u :=
    (h.coerce_eq_ok (renders_toTy s t)).mpr hcoerces
  exact (h.coerce_eq_ok (renders_toTy s t)).mp (Value.coerce_again hok ⟨"", .unknown⟩)

/-- At types that come to the same a document says the same of a value. -/
theorem coerces_of_equates (h : s.Models d) (hequates : s.Equates t.toTy t'.toTy)
    (hcoerces : d.Coerces t' v u) : d.Coerces t v u := by
  have hok : v.coerce s ⟨"", .unknown⟩ t'.toTy = .ok u :=
    (h.coerce_eq_ok (renders_toTy s t')).mpr hcoerces
  exact (h.coerce_eq_ok (renders_toTy s t)).mp (hequates.coerce hok)

end Scope.Models

/-! ## Constants that are other constants -/

namespace Document

/-- **Coercion is idempotent**, and a constant that is another constant of the same type
has its value. -/
theorem coerce_idempotent (s : Scope) :
    (∀ (site site' : Site) (ty : Ty) (v u : Value),
      v.coerce s site ty = .ok u → u.coerce s site' ty = .ok u)
      ∧ ∀ (d : Document) (name : String) (warnings : List Warning),
        d.compile name = .ok ⟨s, warnings⟩ →
        ∀ (a : String) (m : Mention) (t t' : TypeExpr) (expr : ConstExpr),
          d.Defines a (.const t (.reference m)) → d.Defines m.name (.const t' expr) →
          s.Equates t.toTy t'.toTy →
          ∃ v, s.constant? a = some v ∧ s.constant? m.name = some v := by
  refine ⟨fun site site' ty v u h => Value.coerce_again h site', ?_⟩
  intro d name warnings hok a m t t' expr ha hm hequates
  have hstores := stores_of_compile hok
  have hmodels := (stage_of_compile hok).models
  obtain ⟨v, hv, loose, hstands, hcoerces⟩ := hstores.exists_constant? hmodels.arena ha
  obtain ⟨u, hu, source, hstands', hcoerces'⟩ := hstores.exists_constant? hmodels.arena hm
  have hloose : loose = u :=
    hmodels.looseValue_unique hstands (.constant hm hstands' hcoerces')
  subst hloose
  have hsame : d.Coerces t loose loose :=
    hmodels.coerces_of_equates hequates (hmodels.coerces_again hcoerces')
  rw [hmodels.coerces_unique hcoerces hsame] at hv
  exact ⟨loose, hv, hu⟩

/-- A constant that is a copy of another, whose type is written with a typedef. -/
def boards : Document where
  headers := []
  definitions :=
    [⟨"COPY", ⟨1, 1⟩, .const (.list (.set (.primitive .byte)))
        (.reference ⟨"BOARD", ⟨1, 30⟩⟩)⟩,
      ⟨"BOARD", ⟨2, 1⟩, .const (.list (.named ⟨"Cells", ⟨2, 12⟩⟩))
        (.list [.list [.int 1, .int 2, .int 1]])⟩,
      ⟨"Cells", ⟨3, 1⟩, .typedef (.set (.primitive .byte))⟩]

def boardsScope : Scope where
  name := "boards"
  entities :=
    [⟨"COPY", ⟨1, 1⟩, true, .const (.list (.set (.primitive .byte)))
        (.reference ⟨"BOARD", ⟨1, 30⟩, some (.const 1)⟩)
        (some (.list [.set [.byte 1, .byte 2]]))⟩,
      ⟨"BOARD", ⟨2, 1⟩, true, .const (.list (.named ⟨"Cells", ⟨2, 12⟩, some 2⟩))
        (.list [.list [.int 1, .int 2, .int 1]])
        (some (.list [.set [.byte 1, .byte 2]]))⟩,
      ⟨"Cells", ⟨3, 1⟩, true, .typedef (.set (.primitive .byte))⟩]
  symbols := [("COPY", 0), ("BOARD", 1), ("Cells", 2)]

section

open Evaluation

theorem compile_boards : boards.compile "boards" = .ok ⟨boardsScope, []⟩ := by
  simp [boards, boardsScope]

end

/-- The copy of a board is the board: a list of a set in which nothing is twice. -/
theorem coerce_idempotent_boards :
    boards.compile "boards" = .ok ⟨boardsScope, []⟩
      ∧ boardsScope.Equates (.list (.set (.primitive .byte)))
        (.list (.named ⟨"Cells", ⟨2, 12⟩, none⟩))
      ∧ (∃ v, boardsScope.constant? "COPY" = some v ∧ boardsScope.constant? "BOARD" = some v)
      ∧ boardsScope.constant? "COPY" = some (.list [.set [.byte 1, .byte 2]])
      ∧ ∀ site, (Value.list [.set [.byte 1, .byte 2]]).coerce boardsScope site
        (.list (.named ⟨"Cells", ⟨2, 12⟩, none⟩)) = .ok (.list [.set [.byte 1, .byte 2]]) := by
  have hcells : boardsScope.shape (.named ⟨"Cells", ⟨2, 12⟩, none⟩)
      = .ok (.set (.primitive .byte)) := rfl
  have hsame : boardsScope.Equates (.list (.set (.primitive .byte)))
      (.list (.named ⟨"Cells", ⟨2, 12⟩, none⟩)) :=
    .list (Scope.shape_list _) (Scope.shape_list _) (.same (Scope.shape_set _) hcells)
  obtain ⟨hagain, hconstants⟩ := coerce_idempotent boardsScope
  refine ⟨compile_boards, hsame, ?_, rfl, fun site => ?_⟩
  · exact hconstants boards "boards" [] compile_boards "COPY" ⟨"BOARD", ⟨1, 30⟩⟩ _ _ _
      ⟨_, .head _, rfl, rfl⟩ ⟨_, .tail _ (.head _), rfl, rfl⟩ hsame
  · exact hagain ⟨"BOARD", ⟨2, 1⟩⟩ site _ (.list [.list [.i64 1, .i64 2, .i64 1]]) _ rfl

end Document

end Interlink
