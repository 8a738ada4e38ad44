import Interlink.Proofs.Link.Coerce
import Interlink.Proofs.Link.Names

/-!
# Evaluation follows the rules

An expression whose references are bound is evaluated with a source of the
values of constants: the table of those found so far, or what is stored with
the constants. If the source has the right values (`Scope.Supplies`), the result
is what the document says, and what the document says is the result
(`Models.evaluate_eq_ok`). A document says at most one thing
(`Models.hasValue_unique`), so it does not matter which source is used, nor in
which order constants are evaluated.

Values of constants are found along a trail, and kept in a table that only
grows. All values in the table are right (`ValueTable.Sound`), whatever is asked
for (`findValue_sound`); and every value is found, unless constants go round in
circles (`exists_findValue`).
-/

namespace Interlink

namespace ConstExpr

theorem mem_itemMentions {items : List ConstExpr} {m : Mention} :
    m ∈ itemMentions items ↔ ∃ c ∈ items, m ∈ c.mentions := by
  induction items with
  | nil => simp [itemMentions]
  | cons item items ih => simp [itemMentions, ih]

/-- The names that a sequence of pairs mentions are those that its keys and
values mention. -/
theorem mem_entryMentions {entries : List (ConstExpr × ConstExpr)}
    {m : Mention} :
    m ∈ entryMentions entries ↔
      ∃ c ∈ entries, m ∈ c.1.mentions ∨ m ∈ c.2.mentions := by
  induction entries with
  | nil => simp [entryMentions]
  | cons entry entries ih =>
    obtain ⟨key, value⟩ := entry
    simp [entryMentions, ih, or_assoc]

end ConstExpr

namespace Scope

variable {s s' : Scope} {d : Document} {id : EntityId} {e : Entity}

namespace Models

/-! ## What references stand for -/

/-- A name that means a constant stands for its value. -/
theorem looseValue_of_const (h : s.Models d) {m : Mention}
    (hmeans : s.Means m.name (.const id)) {v : Value} :
    d.LooseValue (.reference m) v ↔ d.ConstantValue m.name v := by
  constructor
  · intro hv
    cases hv with
    | constant hdefines hstands hcoerces =>
      exact ⟨_, _, hdefines, _, hstands, hcoerces⟩
    | item hnames =>
      obtain ⟨_, _, _, -, -, -, hmeans'⟩ := h.means_of_namesItem hnames
      cases h.means_unique hmeans hmeans'
  · rintro ⟨type, expr, hdefines, loose, hstands, hcoerces⟩
    exact .constant hdefines hstands hcoerces

/-- A name that means an item of an enum stands for that item. -/
theorem looseValue_of_item (h : s.Models d) {m : Mention} {n : Int32}
    (hmeans : s.Means m.name (.item id n)) (he : s.entity? id = some e)
    {v : Value} : d.LooseValue (.reference m) v ↔ v = .enum e.name n := by
  constructor
  · intro hv
    cases hv with
    | constant hdefines =>
      obtain ⟨_, _, -, -, hmeans'⟩ := h.means_of_defines hdefines
      cases h.means_unique hmeans hmeans'
    | item hnames =>
      obtain ⟨j, e', k, he', rfl, hk, hmeans'⟩ := h.means_of_namesItem hnames
      cases h.means_unique hmeans hmeans'
      rw [he] at he'
      cases he'
      rw [Int32.toInt_inj.mp hk]
  · rintro rfl
    exact .item (h.namesItem_of_means hmeans he)

/-- **An expression stands for at most one value.** -/
theorem looseValue_unique (h : s.Models d) {c : ConstExpr} {v v' : Value}
    (hv : d.LooseValue c v) (hv' : d.LooseValue c v') : v = v' := by
  induction hv generalizing v' with
  | bool b => cases hv'; rfl
  | int n => cases hv'; rfl
  | double x => cases hv'; rfl
  | string t => cases hv'; rfl
  | @list items values hlength _ ih =>
    cases hv' with | @list _ values' hlength' hall' =>
    have hunique : List.Forall₂ (fun c v => ∀ v', d.LooseValue c v' → v = v')
        items values :=
      List.forall₂_iff_zip.mpr ⟨hlength, fun hx _ hv' => ih _ hx hv'⟩
    have hother : List.Forall₂ d.LooseValue items values' :=
      List.forall₂_iff_zip.mpr ⟨hlength', fun hx => hall' _ hx⟩
    exact congrArg Value.list
      (eq_of_forall₂ hunique hother fun c v v' hv hv' => hv v' hv')
  | @map entries values hlength _ _ ihk ihv =>
    cases hv' with | @map _ values' hlength' hkeys' hvalues' =>
    have hunique : List.Forall₂ (fun c v => ∀ v' : Value × Value,
          d.LooseValue c.1 v'.1 → d.LooseValue c.2 v'.2 → v = v')
        entries values :=
      List.forall₂_iff_zip.mpr ⟨hlength, fun hx _ hk' hv' =>
        Prod.ext (ihk _ hx hk') (ihv _ hx hv')⟩
    have hother : List.Forall₂ (fun c v => d.LooseValue c.1 v.1
          ∧ d.LooseValue c.2 v.2) entries values' :=
      List.forall₂_iff_zip.mpr ⟨hlength', fun hx =>
        ⟨hkeys' _ hx, hvalues' _ hx⟩⟩
    exact congrArg Value.map
      (eq_of_forall₂ hunique hother fun c v v' hv hv' => hv v' hv'.1 hv'.2)
  | @constant m _ _ _ _ hdefines _ hcoerces ih =>
    obtain ⟨_, _, -, -, hmeans⟩ := h.means_of_defines hdefines
    obtain ⟨_, _, hdefines', loose', hstands', hcoerces'⟩ :=
      (h.looseValue_of_const hmeans).mp hv'
    cases h.defines_unique hdefines hdefines'
    cases ih hstands'
    exact h.coerces_unique hcoerces hcoerces'
  | item hnames =>
    obtain ⟨j, e', k, he', rfl, hk, hmeans⟩ := h.means_of_namesItem hnames
    rw [(h.looseValue_of_item hmeans he').mp hv', Int32.toInt_inj.mp hk]

/-- **An expression has at most one value** at a type. -/
theorem hasValue_unique (h : s.Models d) {t : TypeExpr} {c : ConstExpr}
    {v v' : Value} (hv : d.HasValue t c v) (hv' : d.HasValue t c v') :
    v = v' := by
  obtain ⟨loose, hstands, hcoerces⟩ := hv
  obtain ⟨loose', hstands', hcoerces'⟩ := hv'
  cases h.looseValue_unique hstands hstands'
  exact h.coerces_unique hcoerces hcoerces'

/-- **A constant has at most one value.** -/
theorem constantValue_unique (h : s.Models d) {name : String} {v v' : Value}
    (hv : d.ConstantValue name v) (hv' : d.ConstantValue name v') : v = v' := by
  obtain ⟨type, expr, hdefines, hvalue⟩ := hv
  obtain ⟨type', expr', hdefines', hvalue'⟩ := hv'
  cases h.defines_unique hdefines hdefines'
  exact h.hasValue_unique hvalue hvalue'

end Models

/-! ## Evaluating an expression -/

/-- **A source of values supplies a reference**: if the reference is bound to a
constant, the source has its value, and no other. -/
def Supplies (s : Scope) (d : Document)
    (constant : EntityId → Entity → Except CompileError Value)
    (r : Reference ConstTarget) : Prop :=
  ∀ id e, r.target = some (.const id) → s.entity? id = some e →
    ∀ v, constant id e = .ok v ↔ d.ConstantValue e.name v

end Scope

namespace Init

variable {s : Scope} {d : Document} {owner : String}
  {constant : EntityId → Entity → Except CompileError Value}

/-- A bound reference stands for what the source has. -/
theorem loose_reference (h : s.Models d) {r : Reference ConstTarget} {m : Mention}
    (hname : r.name = m.name) (hbound : s.BoundConst r)
    (hsource : s.Supplies d constant r) {v : Value} :
    loose s owner constant (.reference r) = .ok v ↔
      d.LooseValue (.reference m) v := by
  obtain ⟨target, htarget, hmeans⟩ := hbound
  rw [hname] at hmeans
  unfold loose
  rw [htarget]
  cases target with
  | const id =>
    rw [h.looseValue_of_const hmeans]
    obtain ⟨e, he, hname', -⟩ := hmeans
    simp only [he, ← hname']
    exact hsource id e htarget he v
  | item id n =>
    have hitem := hmeans
    obtain ⟨e, -, -, he, -⟩ := hmeans
    rw [h.looseValue_of_item hitem he]
    simp only [he, Except.ok.injEq]
    exact eq_comm

mutual

/-- **The loose value of an expression** is what it stands for. -/
theorem loose_eq_ok (h : s.Models d) {init : Init} {c : ConstExpr} {v : Value}
    (herase : init.erase = c.toInit)
    (hbound : ∀ r ∈ init.references, s.BoundConst r)
    (hsource : ∀ r ∈ init.references, s.Supplies d constant r) :
    init.loose s owner constant = .ok v ↔ d.LooseValue c v := by
  cases init with
  | bool b =>
    cases c <;> cases herase
    exact ⟨fun hok => Except.ok.inj hok ▸ .bool b, fun hv => by cases hv; rfl⟩
  | int n =>
    cases c <;> cases herase
    exact ⟨fun hok => Except.ok.inj hok ▸ .int n, fun hv => by cases hv; rfl⟩
  | double x =>
    cases c <;> cases herase
    exact ⟨fun hok => Except.ok.inj hok ▸ .double x, fun hv => by cases hv; rfl⟩
  | string t =>
    cases c <;> cases herase
    exact ⟨fun hok => Except.ok.inj hok ▸ .string t, fun hv => by cases hv; rfl⟩
  | list items =>
    cases c <;> simp only [erase, ConstExpr.toInit, reduceCtorEq,
      Init.list.injEq] at herase
    rw [loose, map_eq_ok]
    simp only [looseItems_eq_ok h herase hbound hsource]
    constructor
    · rintro ⟨values, hvalues, rfl⟩
      obtain ⟨hlength, hall⟩ := List.forall₂_iff_zip.mp hvalues
      exact .list hlength fun _ hx => hall hx
    · rintro (_ | _ | _ | _ | ⟨hlength, hall⟩)
      exact ⟨_, List.forall₂_iff_zip.mpr ⟨hlength, fun hx => hall _ hx⟩, rfl⟩
  | map entries =>
    cases c <;> simp only [erase, ConstExpr.toInit, reduceCtorEq,
      Init.map.injEq] at herase
    rw [loose, map_eq_ok]
    simp only [looseEntries_eq_ok h herase hbound hsource]
    constructor
    · rintro ⟨values, hvalues, rfl⟩
      obtain ⟨hlength, hall⟩ := List.forall₂_iff_zip.mp hvalues
      exact .map hlength (fun _ hx => (hall hx).1) fun _ hx => (hall hx).2
    · rintro (_ | _ | _ | _ | _ | ⟨hlength, hkeys, hall⟩)
      exact ⟨_, List.forall₂_iff_zip.mpr
        ⟨hlength, fun hx => ⟨hkeys _ hx, hall _ hx⟩⟩, rfl⟩
  | reference r =>
    cases c <;> simp only [erase, ConstExpr.toInit, reduceCtorEq,
      Init.reference.injEq] at herase
    exact loose_reference (r := r) h (congrArg Reference.name herase)
      (hbound r (List.mem_singleton_self r))
      (hsource r (List.mem_singleton_self r))

theorem looseItems_eq_ok (h : s.Models d) {items : List Init}
    {cs : List ConstExpr} {values : List Value}
    (herase : eraseItems items = ConstExpr.itemsToInit cs)
    (hbound : ∀ r ∈ itemReferences items, s.BoundConst r)
    (hsource : ∀ r ∈ itemReferences items, s.Supplies d constant r) :
    looseItems s owner constant items = .ok values ↔
      List.Forall₂ d.LooseValue cs values := by
  match items, cs with
  | [], [] =>
    rw [looseItems, Except.ok.injEq, List.forall₂_nil_left_iff, eq_comm]
  | item :: items, c :: cs =>
    obtain ⟨herase, herases⟩ := List.cons.inj herase
    obtain ⟨hbound, hbounds⟩ := List.forall_mem_append.mp hbound
    obtain ⟨hsource, hsources⟩ := List.forall_mem_append.mp hsource
    simp only [looseItems, bind_eq_ok, pure_eq_ok,
      loose_eq_ok h herase hbound hsource,
      looseItems_eq_ok h herases hbounds hsources, List.forall₂_cons_left_iff]
    constructor
    · rintro ⟨v, hv, vs, hvs, rfl⟩
      exact ⟨v, vs, hv, hvs, rfl⟩
    · rintro ⟨v, vs, hv, hvs, rfl⟩
      exact ⟨v, hv, vs, hvs, rfl⟩

theorem looseEntries_eq_ok (h : s.Models d) {entries : List (Init × Init)}
    {cs : List (ConstExpr × ConstExpr)} {values : List (Value × Value)}
    (herase : eraseEntries entries = ConstExpr.entriesToInit cs)
    (hbound : ∀ r ∈ entryReferences entries, s.BoundConst r)
    (hsource : ∀ r ∈ entryReferences entries, s.Supplies d constant r) :
    looseEntries s owner constant entries = .ok values ↔
      List.Forall₂ (fun c v => d.LooseValue c.1 v.1 ∧ d.LooseValue c.2 v.2)
        cs values := by
  match entries, cs with
  | [], [] =>
    rw [looseEntries, Except.ok.injEq, List.forall₂_nil_left_iff, eq_comm]
  | (key, value) :: entries, (ck, cv) :: cs =>
    obtain ⟨hpair, herases⟩ := List.cons.inj herase
    obtain ⟨hkerase, hverase⟩ := Prod.mk.inj hpair
    obtain ⟨hbound, hbounds⟩ := List.forall_mem_append.mp hbound
    obtain ⟨hkbound, hvbound⟩ := List.forall_mem_append.mp hbound
    obtain ⟨hsource, hsources⟩ := List.forall_mem_append.mp hsource
    obtain ⟨hksource, hvsource⟩ := List.forall_mem_append.mp hsource
    simp only [looseEntries, bind_eq_ok, pure_eq_ok,
      loose_eq_ok h hkerase hkbound hksource,
      loose_eq_ok h hverase hvbound hvsource,
      looseEntries_eq_ok h herases hbounds hsources,
      List.forall₂_cons_left_iff, Prod.exists]
    constructor
    · rintro ⟨k, hk, v, hv, vs, hvs, rfl⟩
      exact ⟨k, v, vs, ⟨hk, hv⟩, hvs, rfl⟩
    · rintro ⟨k, v, vs, ⟨hk, hv⟩, hvs, rfl⟩
      exact ⟨k, hk, v, hv, vs, hvs, rfl⟩

end

/-- An expression is evaluated by taking its loose value and coercing it. -/
theorem evaluate_eq_ok_iff_coerce {site : Site} {init : Init} {ty : Ty}
    {v : Value} :
    init.evaluate s site constant ty = .ok v ↔
      ∃ loose, init.loose s site.owner constant = .ok loose
        ∧ loose.coerce s site ty = .ok v := by
  unfold evaluate
  cases init.loose s site.owner constant <;> simp

/-- **The value of an expression at a type** is what the document says. -/
theorem evaluate_eq_ok (h : s.Models d) (site : Site) {init : Init}
    {c : ConstExpr} {t : TypeExpr} {ty : Ty} {v : Value}
    (herase : init.erase = c.toInit) (hty : s.Renders t ty)
    (hbound : ∀ r ∈ init.references, s.BoundConst r)
    (hsource : ∀ r ∈ init.references, s.Supplies d constant r) :
    init.evaluate s site constant ty = .ok v ↔ d.HasValue t c v := by
  rw [evaluate_eq_ok_iff_coerce]
  simp only [loose_eq_ok h herase hbound hsource, h.coerce_eq_ok hty]
  rfl

end Init

/-! ## Finding the values of constants -/

namespace Scope

variable {s s' : Scope} {d : Document} {id : EntityId} {e : Entity}
  {table table' : ValueTable}

/-- **The values in a table are right.** -/
def SoundTable (s : Scope) (d : Document) (table : ValueTable) : Prop :=
  ∀ id v, table.lookup id = some v → ∀ e, s.entity? id = some e →
    d.ConstantValue e.name v

/-- **A table only grows**: what it holds stays. -/
def Grows (table table' : ValueTable) : Prop :=
  ∀ id v, table.lookup id = some v → table'.lookup id = some v

theorem Grows.refl (table : ValueTable) : Grows table table := fun _ _ h => h

theorem Grows.trans {table₁ table₂ table₃ : ValueTable} (h₁ : Grows table₁ table₂)
    (h₂ : Grows table₂ table₃) : Grows table₁ table₃ :=
  fun id v h => h₂ id v (h₁ id v h)

theorem SoundTable.of_erase_eq {s' : Scope} (h : s.SoundTable d table)
    (heq : s'.erase = s.erase) : s'.SoundTable d table := by
  intro id v hlookup e' he'
  obtain ⟨e, he, herase⟩ := exists_entity?_of_erase_eq heq.symm he'
  rw [← Entity.name_eq_of_erase_eq herase]
  exact h id v hlookup e he

theorem soundTable_nil : s.SoundTable d [] := fun _ _ h => (nomatch h)

theorem SoundTable.cons (htable : s.SoundTable d table)
    (he : s.entity? id = some e) {v : Value} (hv : d.ConstantValue e.name v) :
    s.SoundTable d ((id, v) :: table) := by
  intro j w hw e' he'
  by_cases hj : j = id
  · subst hj
    rw [List.lookup_cons_self] at hw
    cases hw
    rw [he] at he'
    cases he'
    exact hv
  · rw [List.lookup_cons, beq_false_of_ne hj] at hw
    exact htable j w hw e' he'

/-- A value for a constant that had none is in no one's way. -/
theorem Grows.cons (hgrows : Grows table table')
    (hnone : table.lookup id = none) {v : Value} :
    Grows table ((id, v) :: table') := by
  intro j w hw
  have hj : j ≠ id := by
    rintro rfl
    rw [hnone] at hw
    cases hw
  rw [List.lookup_cons, beq_false_of_ne hj]
  exact hgrows j w hw

/-- A sound table supplies the references to constants that it holds. -/
theorem SoundTable.supplies (htable : s.SoundTable d table) (h : s.Models d)
    {r : Reference ConstTarget}
    (hheld : ∀ id, r.target = some (.const id) → ∃ v, table.lookup id = some v) :
    s.Supplies d table.value r := by
  intro id e htarget he v
  obtain ⟨w, hw⟩ := hheld id htarget
  have hvalue := htable id w hw e he
  unfold ValueTable.value
  rw [hw]
  constructor
  · rintro ⟨⟩
    exact hvalue
  · intro hv
    rw [h.constantValue_unique hv hvalue]

/-- **What is known of a way to find values**: it finds the right ones, and
keeps them with those that were there. -/
def Finds (s : Scope) (d : Document)
    (find : ValueTable → EntityId → Entity →
      Except CompileError (Value × ValueTable)) : Prop :=
  ∀ table id e v table', s.entity? id = some e → s.SoundTable d table →
    find table id e = .ok (v, table') →
    s.SoundTable d table' ∧ Grows table table' ∧ table'.lookup id = some v

/-- Finding all constants that are referred to, one after the other, leaves a
table that holds them. -/
theorem findReferred_sound {owner : String}
    {find : ValueTable → EntityId → Entity →
      Except CompileError (Value × ValueTable)} (hfind : s.Finds d find)
    {refs : List (Reference ConstTarget)} (htable : s.SoundTable d table)
    (hok : s.findReferred owner find table refs = .ok table') :
    s.SoundTable d table' ∧ Grows table table'
      ∧ ∀ r ∈ refs, ∀ id, r.target = some (.const id) →
        ∃ v, table'.lookup id = some v := by
  fun_induction s.findReferred owner find table refs with
  | case1 table =>
    cases hok
    exact ⟨htable, .refl _, fun r hr => absurd hr List.not_mem_nil⟩
  | case2 => cases hok
  | case3 table r rest id htarget e he v table₁ hv ih =>
    obtain ⟨htable₁, hgrows, hheld⟩ := hfind _ _ _ _ _ he htable hv
    obtain ⟨htable', hgrows', hrest⟩ := ih htable₁ hok
    refine ⟨htable', hgrows.trans hgrows', List.forall_mem_cons.mpr ⟨?_, hrest⟩⟩
    intro j hj
    rw [htarget] at hj
    cases hj
    exact ⟨v, hgrows' id v hheld⟩
  | case4 => cases hok
  | case5 table r rest enumId n htarget ih =>
    obtain ⟨htable', hgrows, hrest⟩ := ih htable hok
    refine ⟨htable', hgrows, List.forall_mem_cons.mpr ⟨?_, hrest⟩⟩
    intro j hj
    rw [htarget] at hj
    cases hj
  | case6 => cases hok

/-- **All constants that are referred to can be found**, one after the other, if
each of them can. -/
theorem exists_findReferred {owner : String}
    {find : ValueTable → EntityId → Entity →
      Except CompileError (Value × ValueTable)} (hfind : s.Finds d find)
    {refs : List (Reference ConstTarget)} (hbound : ∀ r ∈ refs, s.BoundConst r)
    (htable : s.SoundTable d table)
    (hcan : ∀ table r id e, r ∈ refs → r.target = some (.const id) →
      s.entity? id = some e → e.name = r.name ∧ e.kind = .constant →
      s.SoundTable d table → ∃ v table', find table id e = .ok (v, table')) :
    ∃ table', s.findReferred owner find table refs = .ok table' := by
  induction refs generalizing table with
  | nil => exact ⟨table, rfl⟩
  | cons r refs ih =>
    obtain ⟨hr, hrefs⟩ := List.forall_mem_cons.mp hbound
    have ih' : ∀ {table}, s.SoundTable d table →
        ∃ table', s.findReferred owner find table refs = .ok table' :=
      fun htable => ih hrefs htable fun table r' id e hr' =>
        hcan table r' id e (List.mem_cons_of_mem _ hr')
    obtain ⟨target, htarget, hmeans⟩ := hr
    unfold findReferred
    rw [htarget]
    cases target with
    | const id =>
      obtain ⟨e, he, hname, hkind⟩ := hmeans
      obtain ⟨v, table₁, hv⟩ := hcan table r id e List.mem_cons_self htarget he
        ⟨hname, hkind⟩ htable
      simp only [he, hv]
      exact ih' (hfind _ _ _ _ _ he htable hv).1
    | item id n => exact ih' htable

/-- **All constants are bound.** -/
def ConstantsBound (s : Scope) : Prop :=
  ∀ id e type init value, s.entity? id = some e →
    e.body = .const type init value → ∀ r ∈ init.references, s.BoundConst r

namespace Models

/-- A constant in a scope is the one in the document. -/
theorem renders_const (h : s.Models d) (he : s.entity? id = some e) {ty : Ty}
    {init : Init} {value : Option Value} (hbody : e.body = .const ty init value) :
    ∃ t c, d.Defines e.name (.const t c) ∧ s.Renders t ty
      ∧ init.erase = c.toInit := by
  obtain ⟨body, hdefines, hdeclared⟩ := h.exists_defines he
  have hagrees := h.agrees e (List.mem_of_getElem? he)
  rw [hbody] at hdeclared hagrees
  cases hdeclared with | const htype hvalue =>
  exact ⟨_, _, hdefines, renders_of_erase htype hagrees, hvalue⟩

/-- **The values that are found are right.** -/
theorem findValue_sound (h : s.Models d) (hbound : s.ConstantsBound)
    (left : Nat) (t : Trail) : s.Finds d (s.findValue left t) := by
  -- the trail is of no use here: what matters is that every table is sound
  induction left generalizing t with
  | zero =>
    intro table id e v table' he htable hok
    unfold findValue at hok
    split at hok
    next value hlookup =>
      cases hok
      exact ⟨htable, .refl _, hlookup⟩
    next => cases hok
  | succ left ih =>
    intro table id e v table' he htable hok
    unfold findValue at hok
    split at hok
    next value hlookup =>
      cases hok
      exact ⟨htable, .refl _, hlookup⟩
    next hnone =>
      dsimp only at hok
      split at hok
      next => cases hok
      split at hok
      next ty init stored hbody =>
        split at hok
        next => cases hok
        next table₁ hreferred =>
          split at hok
          next => cases hok
          next value hvalue =>
            cases hok
            obtain ⟨htable₁, hgrows, hheld⟩ :=
              findReferred_sound (ih _) htable hreferred
            obtain ⟨type, c, hdefines, hty, hinit⟩ := h.renders_const he hbody
            have hhas := (Init.evaluate_eq_ok h _ hinit hty
              (hbound id e ty init stored he hbody)
              fun r hr => htable₁.supplies h (hheld r hr)).mp hvalue
            exact ⟨htable₁.cons he ⟨type, c, hdefines, hhas⟩, hgrows.cons hnone,
              List.lookup_cons_self⟩
      next => cases hok

/-- **The value of a constant is found** along an open trail, if all constants
have values and none is made of itself. -/
theorem exists_findValue (h : s.Models d) (hbound : s.ConstantsBound)
    (hvalues : ∀ name type expr, d.Defines name (.const type expr) →
      ∃ value, d.HasValue type expr value)
    (hends : Acyclic d.ConstantMentions) {left : Nat} {t : Trail}
    (htable : s.SoundTable d table) (he : s.entity? id = some e)
    (hkind : e.kind = .constant)
    (hopen : s.OpenTrail d.ConstantMentions left t e.name) :
    ∃ v table', s.findValue left t table id e = .ok (v, table') := by
  induction left generalizing t table id e with
  | zero =>
    obtain ⟨-, k, hk, -⟩ := hopen.enter (hends e.name) he
    cases hk
  | succ left ih =>
    obtain ⟨hnew, k, hk, henter⟩ := hopen.enter (hends e.name) he
    cases hk
    unfold findValue
    cases hlookup : table.lookup id with
    | some value => exact ⟨value, table, rfl⟩
    | none =>
      dsimp only
      rw [if_neg (by simpa using hnew)]
      unfold Entity.kind at hkind
      cases hbody : e.body with
      | const ty init stored =>
        dsimp only
        obtain ⟨type, c, hdefines, hty, hinit⟩ := h.renders_const he hbody
        have hrefs := hbound id e ty init stored he hbody
        -- the constants it refers to come first, one step further on the trail
        obtain ⟨table₁, hreferred⟩ : ∃ table₁, s.findReferred e.name
            (s.findValue left (id :: t)) table init.references = .ok table₁ := by
          refine exists_findReferred (h.findValue_sound hbound left (id :: t))
            hrefs htable fun table r j e' hr htarget he' hmeans htable => ?_
          refine ih htable he' hmeans.2 (henter e'.name ⟨type, c, hdefines, ?_⟩)
          rw [hmeans.1, ← Init.map_name_references hinit]
          exact List.mem_map_of_mem hr
        obtain ⟨htable₁, hgrows, hheld⟩ := findReferred_sound
          (h.findValue_sound hbound left (id :: t)) htable hreferred
        obtain ⟨v, hv⟩ := hvalues e.name type c hdefines
        have hevaluate := (Init.evaluate_eq_ok h ⟨e.name, e.span⟩ hinit hty
          hrefs fun r hr => htable₁.supplies h (hheld r hr)).mpr hv
        exact ⟨v, (id, v) :: table₁, by rw [hreferred]; simp only [hevaluate]⟩
      | _ =>
        rw [hbody] at hkind
        cases hkind

/-- The constants that an expression mentions come to an end, if it stands for
a value. -/
theorem acc_of_looseValue (h : s.Models d) {c : ConstExpr} {v : Value}
    (hv : d.LooseValue c v) :
    ∀ m ∈ c.mentions, Acc (fun b a => d.ConstantMentions a b) m.name := by
  induction hv with
  | list hlength _ ih =>
    intro m hm
    obtain ⟨c, hc, hm⟩ := ConstExpr.mem_itemMentions.mp hm
    obtain ⟨v, hcv⟩ := exists_mem_zip hlength hc
    exact ih _ hcv m hm
  | map hlength _ _ ihk ihv =>
    intro m hm
    obtain ⟨c, hc, hm⟩ := ConstExpr.mem_entryMentions.mp hm
    obtain ⟨v, hcv⟩ := exists_mem_zip hlength hc
    exact hm.elim (ihk _ hcv m) (ihv _ hcv m)
  | constant hdefines _ _ ih =>
    intro m hm
    cases List.mem_singleton.mp hm
    refine .intro _ fun b hb => ?_
    obtain ⟨type', expr', hdefines', hb⟩ := hb
    cases h.defines_unique hdefines hdefines'
    obtain ⟨m', hm', rfl⟩ := List.mem_map.mp hb
    exact ih m' hm'
  | item hnames =>
    intro m hm
    cases List.mem_singleton.mp hm
    refine .intro _ fun b hb => ?_
    -- an item is no constant, so nothing follows it
    obtain ⟨type, expr, hdefines, -⟩ := hb
    obtain ⟨_, _, -, -, hmeans⟩ := h.means_of_defines hdefines
    obtain ⟨_, _, _, -, -, -, hmeans'⟩ := h.means_of_namesItem hnames
    cases h.means_unique hmeans hmeans'
  | _ => exact fun m hm => absurd hm List.not_mem_nil

/-- **Constants that all have values do not go round in circles.** -/
theorem acyclic_constantMentions (h : s.Models d)
    (hvalues : ∀ name type expr, d.Defines name (.const type expr) →
      ∃ value, d.HasValue type expr value) : Acyclic d.ConstantMentions := by
  refine acyclic_of_acc fun a => .intro _ fun b hb => ?_
  obtain ⟨type, expr, hdefines, hb⟩ := hb
  obtain ⟨m, hm, rfl⟩ := List.mem_map.mp hb
  obtain ⟨value, loose, hstands, -⟩ := hvalues a type expr hdefines
  exact h.acc_of_looseValue hstands m hm

end Models

end Scope

end Interlink
