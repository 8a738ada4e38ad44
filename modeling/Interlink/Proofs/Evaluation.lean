import Mathlib.Data.List.TakeDrop
import Interlink.Compile

/-!
# Evaluating fixed documents

Whether a name is taken is looked up in a hash table when parts are numbered and
checked, and hash tables do not compute in the logic: what comes of a fixed document
is not seen by reducing. It is found by rewriting with the definitions of the model
and with what is known of tables in general. In the scope of `open Evaluation` these
definitions are rules for `simp`, in the order of the modules that they are from.
-/

namespace Interlink.Evaluation

/-! ## Outcomes and lists -/

attribute [scoped simp] bind Except.bind pure Except.pure Functor.map Except.map
  Functor.discard Functor.mapConst

attribute [scoped simp] List.lookup_cons List.modify List.range List.range.loop
  List.span_eq_takeWhile_dropWhile List.takeWhile_cons List.dropWhile_cons

/-! ## Entities and scopes -/

attribute [scoped simp] Entity.kind Entity.Body.kind Entity.Kind.isType
  Entity.Field.isRequired

attribute [scoped simp] Scope.empty Scope.entity? Scope.id? Scope.named? Scope.declared
  Scope.lookup Scope.targetOf Scope.declareOrHalt Scope.declare Scope.setBody Scope.resolve
  Halt.forget

attribute [scoped simp] Scope.steps Scope.dealias Scope.dealiasEntity Scope.follow Scope.circle

/-! ## Declaring -/

attribute [scoped simp] Mention.toReference TypeExpr.toTy ConstExpr.toInit
  ConstExpr.itemsToInit ConstExpr.entriesToInit nameFault? qualified EnumItem.value?
  numberItems Field.withId numberFields FunctionDecl.number Definition.toBody
  Scope.defineOrHalt Scope.define Scope.defineAll Header.check

/-! ## Binding -/

attribute [scoped simp] Ty.bind splitAtLastDot? Scope.item? Scope.constTarget Init.bind
  Init.bindItems Init.bindEntries Entity.bindFields Entity.Field.bind
  Entity.Field.checkException Entity.Function.bind Entity.bindParent

/-! ## Evaluating -/

attribute [scoped simp] Width.fit? Width.int8 Width.int16 Width.int32 Width.int64 Width.int8?
  Width.int16? Width.int32? Width.int64? Primitive.isInteger Primitive.range?

attribute [scoped simp] Value.int? Value.wholeNumber? Value.ofInt? Value.asPrimitive?
  Value.same Value.distinct Site.misfit Value.coercePrimitive Value.coerceEnum Value.coerce
  Value.coerceItems Value.coerceEntries Value.coerceFields Value.checkFieldsSet

attribute [scoped simp] Init.references Init.itemReferences Init.entryReferences Init.loose
  Init.looseItems Init.looseEntries Init.evaluate ValueTable.value Scope.storedValue
  Scope.findValue Scope.findReferred

/-! ## Checking and linking -/

attribute [scoped simp] Entity.checkDistinct Entity.checkFunctionNames
  Entity.Field.evaluateDefault Entity.evaluateDefaults Entity.Function.checkOneway
  Entity.Function.check

attribute [scoped simp] MethodTable.empty Scope.function? Scope.override?
  Scope.overrideWarnings Scope.nameOf Scope.methodsFrom Scope.findMethods

attribute [scoped simp] sweep Scope.idsOf Scope.resolveAll Scope.bindStep Scope.constantStep
  Scope.typeStep Scope.serviceStep Scope.linkConstants Scope.linkTypes Scope.linkServices
  Scope.link Document.compile

end Interlink.Evaluation
