import Interlink.Proofs.Exchange.Admitted
import Interlink.Proofs.Reordered

/-!
# Defaults

A default may be written for the fields of structs, unions and exceptions, for the
parameters of functions, and for the exceptions that functions declare. In a compiled
document the first two have been evaluated: what is stored for such a field is what
its default comes to at its type, and so it is a value of that type. A default of
another type is refused.

A default of a declared exception is another matter. The names in it are looked up,
but it is not evaluated. It may be anything, and nothing is stored for it
(`Document.exists_unevaluated_alarm`).
-/

namespace Interlink

/-- The exceptions that the functions of a body declare. -/
def Entity.Body.thrown : Entity.Body → List Entity.Field
  | .service functions _ _ => functions.flatMap Entity.Function.exceptions
  | _ => []

/-- The constants in the defaults of declared exceptions are among those of the
body. -/
theorem Entity.Body.mem_constReferences_of_thrown {b : Entity.Body} {f : Entity.Field}
    (hf : f ∈ b.thrown) {r : Reference ConstTarget} (hr : r ∈ f.defaultReferences) :
    r ∈ b.constReferences := by
  cases b with
  | service functions parent methods =>
    obtain ⟨g, hg, hf⟩ := List.mem_flatMap.mp hf
    exact List.mem_flatMap.mpr ⟨g, hg, List.mem_append_right _
      (List.mem_flatMap.mpr ⟨f, hf, hr⟩)⟩
  | _ => exact absurd hf List.not_mem_nil

/-- A declared exception has no value where exceptions have none. -/
theorem Entity.Body.BareExceptions.defaultValue_eq_none {b : Entity.Body}
    (h : b.BareExceptions) {f : Entity.Field} (hf : f ∈ b.thrown) :
    f.defaultValue = none := by
  cases b with
  | service functions parent methods =>
    obtain ⟨g, hg, hf⟩ := List.mem_flatMap.mp hf
    exact h g hg f hf
  | _ => exact absurd hf List.not_mem_nil

namespace Scope.Stage

variable {s : Scope} {d : Document} {id : EntityId} {e : Entity}

/-- **Evaluating a default again changes nothing**, in a linked scope. -/
theorem evaluateDefault_eq (h : s.Stage d (Entity.Linked s d) s)
    (hvalued : s.ConstantsValued d) (he : s.entity? id = some e) {g : Entity.Field}
    (hg : g ∈ e.body.valuedFields) (owner : String) :
    g.evaluateDefault s owner = .ok g := by
  obtain ⟨x, hx, hdeclared⟩ := h.models.exists_defines he
  obtain ⟨-, hvalues⟩ := (h.each id e he).settled x hx
  obtain ⟨f, -, hdeclares, hvalue⟩ := hdeclared.exists_valuedField hvalues hg
  have hbound := (h.each id e he).bound.1
  refine (h.models.evaluateDefault_eq_ok hvalued owner hdeclares (fun r hr => ?_)
    fun r hr => ?_).mpr ⟨g.defaultValue, rfl, hvalue⟩
  · exact h.models.arena.agrees_of_boundTo
      (hbound.types r (Entity.Body.mem_typeReferences hg hr))
  · exact hbound.constants r (Entity.Body.mem_constReferences hg hr)

end Scope.Stage

/-- What is stored for a field whose default does not change when it is evaluated is
what the default comes to. -/
theorem Entity.Field.exists_evaluate {s : Scope} {owner : String} {g : Entity.Field}
    (h : g.evaluateDefault s owner = .ok g) {init : Init} (hg : g.default = some init) :
    ∃ v, g.defaultValue = some v
      ∧ init.evaluate s ⟨qualified owner g.name, g.span⟩ Scope.storedValue g.type = .ok v := by
  rw [Scope.Models.evaluateDefault_some hg, map_eq_ok] at h
  obtain ⟨v, hv, hsame⟩ := h
  exact ⟨v, (congrArg Entity.Field.defaultValue hsame).symm, hv⟩

namespace Document

variable {d : Document} {name : String} {c : Compiled}

/-- **Defaults are evaluated at the types of their fields**, in the scope of a compiled
document, for all fields but declared exceptions: what is stored is a value of the
type. The default of a declared exception has no value, only its names are resolved. -/
theorem defaults_of_compile (hok : d.compile name = .ok c) {id : EntityId} {e : Entity}
    (he : c.scope.entity? id = some e) :
    (∀ f ∈ e.body.valuedFields, ∀ init, f.default = some init →
        ∃ v, f.defaultValue = some v ∧ c.scope.Admits f.type v
          ∧ ∀ owner, init.evaluate c.scope ⟨qualified owner f.name, f.span⟩
            Scope.storedValue f.type = .ok v)
      ∧ ∀ f ∈ e.body.thrown, f.defaultValue = none
        ∧ ∀ r ∈ f.defaultReferences, c.scope.BoundConst r := by
  have hstage := stage_of_compile hok
  have hvalued := constantsValued_of_compile hok
  refine ⟨fun f hf init hinit => ?_, fun f hf => ⟨?_, fun r hr => ?_⟩⟩
  · have hself := hstage.evaluateDefault_eq hvalued he hf
    obtain ⟨v, hv, -⟩ := Entity.Field.exists_evaluate (hself "") hinit
    refine ⟨v, hv, ?_, fun owner => ?_⟩
    · obtain ⟨w, hw⟩ := hstage.exists_toWire_default (wellFormed_of_compile hok) he hf hv
      exact Value.admits_of_toWire hw
    · obtain ⟨v', hv', hevaluate⟩ := Entity.Field.exists_evaluate (hself owner) hinit
      rw [hv] at hv'
      cases hv'
      exact hevaluate
  · exact (bareExceptions_of_compile hok id e he).defaultValue_eq_none hf
  · exact (hstage.each id e he).bound.1.constants r
      (Entity.Body.mem_constReferences_of_thrown hf hr)

/-- A document with a default for a field of an exception, one for a parameter, and one
for a declared exception, which is a number. -/
def alarm : Document where
  headers := []
  definitions :=
    [⟨"Overheat", ⟨1, 1⟩, .struct .exception
        [⟨some 1, "degrees", .primitive .i32, .unmarked, some (.int 90), ⟨2, 3⟩⟩]⟩,
      ⟨"Monitor", ⟨4, 1⟩, .service
        [⟨"watch", [⟨some 1, "seconds", .primitive .byte, .unmarked, some (.int 60), ⟨5, 14⟩⟩],
          none, [⟨some 1, "hot", .named ⟨"Overheat", ⟨6, 15⟩⟩, .unmarked, some (.int 5),
            ⟨6, 13⟩⟩], false, ⟨5, 3⟩⟩] none⟩]

/-- Its exception. -/
def overheat : Entity :=
  ⟨"Overheat", ⟨1, 1⟩, true, .struct .exception
    [⟨1, "degrees", .primitive .i32, .unmarked, some (.int 90), some (.i32 90), ⟨2, 3⟩⟩]⟩

/-- What its function declares to end with. -/
def hot : Entity.Field :=
  ⟨1, "hot", .named ⟨"Overheat", ⟨6, 15⟩, some 0⟩, .unmarked, some (.int 5), none, ⟨6, 13⟩⟩

/-- Its service. -/
def monitor : Entity :=
  ⟨"Monitor", ⟨4, 1⟩, true, .service
    [⟨"watch", [⟨1, "seconds", .primitive .byte, .unmarked, some (.int 60), some (.byte 60),
      ⟨5, 14⟩⟩], none, [hot], false, ⟨5, 3⟩⟩] none [⟨1, 0⟩]⟩

def alarmScope : Scope where
  name := "alarm"
  entities := [overheat, monitor]
  symbols := [("Overheat", 0), ("Monitor", 1)]

section

open Evaluation

theorem compile_alarm : alarm.compile "alarm" = .ok ⟨alarmScope, []⟩ := by
  simp [alarm, alarmScope, overheat, monitor, hot]

end

/-- In the small document the defaults of the field and of the parameter have values of
their types, and the declared exception has none. -/
theorem defaults_alarm :
    alarm.compile "alarm" = .ok ⟨alarmScope, []⟩
      ∧ alarmScope.entity? 0 = some overheat ∧ alarmScope.entity? 1 = some monitor
      ∧ (∀ f ∈ overheat.body.valuedFields ++ monitor.body.valuedFields,
        ∀ init, f.default = some init → ∃ v, f.defaultValue = some v
          ∧ alarmScope.Admits f.type v
          ∧ ∀ owner, init.evaluate alarmScope ⟨qualified owner f.name, f.span⟩
            Scope.storedValue f.type = .ok v)
      ∧ hot ∈ monitor.body.thrown ∧ hot.defaultValue = none := by
  obtain ⟨hfields, -⟩ := defaults_of_compile compile_alarm
    (show alarmScope.entity? 0 = some overheat from rfl)
  obtain ⟨hparameters, hthrown⟩ := defaults_of_compile compile_alarm
    (show alarmScope.entity? 1 = some monitor from rfl)
  have hhot : hot ∈ monitor.body.thrown := List.mem_singleton_self hot
  exact ⟨compile_alarm, rfl, rfl, List.forall_mem_append.mpr ⟨hfields, hparameters⟩, hhot,
    (hthrown hot hhot).1⟩

/-- **A default of the wrong type is accepted for a declared exception**: it has no
value stored, and evaluating it would fail. -/
theorem exists_unevaluated_alarm :
    ∃ (c : Compiled) (e : Entity) (f : Entity.Field), alarm.compile "alarm" = .ok c
      ∧ c.scope.entity? 1 = some e ∧ f ∈ e.body.thrown
      ∧ f.default = some (.int 5) ∧ f.defaultValue = none
      ∧ ∀ owner v, Init.evaluate c.scope ⟨qualified owner f.name, f.span⟩
        Scope.storedValue f.type (.int 5) ≠ .ok v := by
  refine ⟨_, monitor, hot, compile_alarm, rfl, List.mem_singleton_self hot, rfl, rfl, ?_⟩
  rintro owner v ⟨⟩

end Document

end Interlink
