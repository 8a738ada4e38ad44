import Interlink.Proofs.Exchange.Inferred
import Interlink.Proofs.Exchange.Send

/-!
# Types without handles

The handle of a bound reference adds nothing to its name but a condition. Whatever the
handles in a type are, if something is found, sent or received at it, the same is found,
sent or received when no reference in it is bound. For a type that is a name this holds
step by step, since from there on the typedefs are those of the scope. For a container it
holds item by item.
-/

namespace Interlink

/-- A shape with no reference bound. What is behind an entity belongs to the scope. -/
def Shape.erase : Shape → Shape
  | .primitive p => .primitive p
  | .list element => .list element.erase
  | .set element => .set element.erase
  | .map key value => .map key.erase value.erase
  | .entity id e => .entity id e

namespace Scope.IsArena

variable {s : Scope} {r : Reference EntityId} {referrer : String} {shape : Shape} {ty : Ty}

/-- What a reference means, its name means. -/
theorem targetOf_erase (h : s.IsArena) {found : EntityId × Entity}
    (hok : s.targetOf r referrer = .ok found) : s.targetOf r.erase referrer = .ok found := by
  obtain ⟨id, e⟩ := found
  obtain ⟨he, hname, -⟩ := h.targetOf_eq_ok.mp hok
  exact h.targetOf_eq_ok.mpr ⟨he, hname, .inl rfl⟩

/-- **A name leads where the reference does.** -/
theorem dealias_named_erase (h : s.IsArena)
    (hok : s.dealias (.named r) referrer = .ok shape) :
    s.dealias (.named r.erase) referrer = .ok shape := by
  unfold dealias follow at hok ⊢
  cases htarget : s.targetOf r referrer with
  | error fault =>
    rw [htarget] at hok
    cases hok
  | ok found =>
    rw [htarget] at hok
    rw [h.targetOf_erase htarget]
    exact hok

/-- **A type without handles has the shape of the type**, up to the handles in it. -/
theorem dealias_erase (h : s.IsArena) (hok : s.dealias ty referrer = .ok shape) :
    Shape.erase <$> s.dealias ty.erase referrer = .ok shape.erase := by
  cases ty with
  | named r =>
    rw [Ty.erase, h.dealias_named_erase hok]
    rfl
  | _ =>
    rw [dealias, follow] at hok
    cases hok
    rw [Ty.erase, dealias, follow]
    simp only [Functor.map, Except.map, Shape.erase, Ty.erase_erase]

/-- A name that is exchanged has the shape of the reference. -/
theorem shape_named_erase (h : s.IsArena) (hok : s.shape (.named r) = .ok shape) :
    s.shape (.named r.erase) = .ok shape :=
  shape_eq_ok (h.dealias_named_erase (dealias_of_shape hok))

/-- **A type without handles has the tag of the type.** -/
theorem tag_erase (h : s.IsArena) {tag : Wire.Tag} (hok : ty.tag s = .ok tag) :
    ty.erase.tag s = .ok tag := by
  cases ty with
  | primitive p => exact hok
  | list element =>
    rw [tag_of_shape (shape_list _)] at hok
    rw [Ty.erase, tag_of_shape (shape_list _)]
    exact hok
  | set element =>
    rw [tag_of_shape (shape_set _)] at hok
    rw [Ty.erase, tag_of_shape (shape_set _)]
    exact hok
  | map key value =>
    rw [tag_of_shape (shape_map _ _)] at hok
    rw [Ty.erase, tag_of_shape (shape_map _ _)]
    exact hok
  | named r =>
    obtain ⟨shape, hshape, htag⟩ := bind_eq_ok.mp hok
    exact bind_eq_ok.mpr ⟨shape, h.shape_named_erase hshape, htag⟩

/-- **What is sent at a type is sent at it without handles.** -/
theorem toWire_erase (h : s.IsArena) {v : Value} {w : Wire} (hok : v.toWire s ty = .ok w) :
    v.toWire s ty.erase = .ok w := by
  induction ty generalizing v w with
  | primitive p => exact hok
  | list element ih =>
    cases Value.lowersAs_of_shape hok (shape_list _) with | list announced each =>
    exact Value.toWire_eq_ok.mpr
      ⟨_, shape_list _, .list (h.tag_erase announced) (each.imp fun v w => ih)⟩
  | set element ih =>
    cases Value.lowersAs_of_shape hok (shape_set _) with | set announced each =>
    exact Value.toWire_eq_ok.mpr
      ⟨_, shape_set _, .set (h.tag_erase announced) (each.imp fun v w => ih)⟩
  | map key value ihk ihv =>
    cases Value.lowersAs_of_shape hok (shape_map _ _) with | map keys values each =>
    refine Value.toWire_eq_ok.mpr
      ⟨_, shape_map _ _, .map (h.tag_erase keys) (h.tag_erase values) ?_⟩
    exact each.imp fun x w hx => ⟨ihk hx.1, ihv hx.2⟩
  | named r =>
    obtain ⟨shape, hshape, hlowers⟩ := Value.toWire_eq_ok.mp hok
    exact Value.toWire_eq_ok.mpr ⟨shape, h.shape_named_erase hshape, hlowers⟩

end Scope.IsArena

variable {s : Scope} {ty : Ty}

/-- Receiving goes by the shape of a type, and by how it is written. -/
theorem Wire.toValue_congr_shape {t u : Ty} (hshape : s.shape t = s.shape u)
    (hdisplay : t.display = u.display) (w : Wire) : w.toValue s t = w.toValue s u := by
  have henum : enumToValue t = enumToValue u := by
    funext typeName items w
    cases w <;> simp only [enumToValue, hdisplay]
  rw [toValue, toValue, hshape, hdisplay, henum]

/-- **What is received at a type is received at it without handles.** -/
theorem Scope.IsArena.toValue_erase (h : s.IsArena) {w : Wire} {v : Value}
    (hok : w.toValue s ty = .ok v) : w.toValue s ty.erase = .ok v := by
  -- also where fields are not told apart, so not by what is received at a shape
  induction ty generalizing w v with
  | primitive p => exact hok
  | list element ih =>
    rw [Wire.toValue, shape_list] at hok
    rw [Ty.erase, Wire.toValue, shape_list]
    cases w with
    | list tag items =>
      obtain ⟨vs, hvs, rfl⟩ := map_eq_ok.mp hok
      refine map_eq_ok.mpr ⟨vs, Wire.itemsToValue_eq_ok.mpr ?_, rfl⟩
      exact (Wire.itemsToValue_eq_ok.mp hvs).imp fun w v => ih
    | _ => cases hok
  | set element ih =>
    rw [Wire.toValue, shape_set] at hok
    rw [Ty.erase, Wire.toValue, shape_set]
    cases w with
    | set tag items =>
      obtain ⟨vs, hvs, rfl⟩ := map_eq_ok.mp hok
      refine map_eq_ok.mpr ⟨vs, Wire.itemsToValue_eq_ok.mpr ?_, rfl⟩
      exact (Wire.itemsToValue_eq_ok.mp hvs).imp fun w v => ih
    | _ => cases hok
  | map key value ihk ihv =>
    rw [Wire.toValue, shape_map] at hok
    rw [Ty.erase, Wire.toValue, shape_map]
    cases w with
    | map keyTag valueTag entries =>
      obtain ⟨vs, hvs, rfl⟩ := map_eq_ok.mp hok
      refine map_eq_ok.mpr ⟨vs, Wire.entriesToValue_eq_ok.mpr ?_, rfl⟩
      exact (Wire.entriesToValue_eq_ok.mp hvs).imp fun x v hx => ⟨ihk hx.1, ihv hx.2⟩
    | _ => cases hok
  | named r =>
    cases hshape : s.shape (.named r) with
    | error fault =>
      rw [Wire.toValue, hshape] at hok
      cases hok
    | ok shape =>
      rw [Ty.erase, ← hok]
      refine Wire.toValue_congr_shape (t := .named r.erase) (u := .named r) ?_ rfl w
      rw [hshape, h.shape_named_erase hshape]

end Interlink
