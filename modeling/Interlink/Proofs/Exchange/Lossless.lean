import Interlink.Proofs.Exchange.Construct

/-!
# What a wire value tells of the value that was sent

On the wire there are no names: a field goes by its id, and the value of an enum by
its number. And fields go in the order of their declaration. So two values may go as
one wire value, but only if they are alike (`Value.alike_of_toWire`): the type at
which they are sent has the names, and its ids are different. The other way round,
values that are alike go as one wire value (`Value.Alike.toWire_eq`). So the order in
which fields were set is all that is lost.

Receiving loses more. A field that was not set arrives with its default, and then
nobody can tell it from a field that was set to it; on the wire the two are
different still.

Structs are alike when the same names are set in them. If no struct sets a name twice
(`Value.SetsOnce`), there is then an order of the fields of one struct in which they
are those of the other, field by field (`Value.Shuffles`, `Value.Alike.shuffles`).
-/

namespace Interlink

/-! ## Lists side by side -/

section Lists

variable {α β γ : Type} {xs : List α} {ys : List β} {zs zs' : List γ}

/-- Lists that belong to one list belong together, if their elements do. -/
theorem forall₂_of_common {R : α → γ → Prop} {S : β → γ → Prop} {T : α → β → Prop}
    (hR : List.Forall₂ R xs zs) (hS : List.Forall₂ S ys zs)
    (h : ∀ x ∈ xs, ∀ y z, R x z → S y z → T x y) : List.Forall₂ T xs ys := by
  induction hR generalizing ys with
  | nil =>
    cases hS
    exact .nil
  | cons hx _ ih =>
    cases hS with | cons hy hS =>
    refine .cons (h _ List.mem_cons_self _ _ hx hy) (ih hS fun x hx => ?_)
    exact h x (List.mem_cons_of_mem _ hx)

/-- What belongs to lists that belong together is equal, if it is for each of their
elements. -/
theorem eq_of_forall₂_pair {T : α → β → Prop} {R : α → γ → Prop} {S : β → γ → Prop}
    (hT : List.Forall₂ T xs ys) (hR : List.Forall₂ R xs zs) (hS : List.Forall₂ S ys zs')
    (h : ∀ x ∈ xs, ∀ y z z', T x y → R x z → S y z' → z = z') : zs = zs' := by
  induction hT generalizing zs zs' with
  | nil =>
    cases hR
    cases hS
    rfl
  | cons hxy _ ih =>
    cases hR with | cons hx hR =>
    cases hS with | cons hy hS =>
    rw [h _ List.mem_cons_self _ _ _ hxy hx hy,
      ih hR hS fun x hx => h x (List.mem_cons_of_mem _ hx)]

end Lists

namespace Value

variable {s : Scope} {ty : Ty} {v u : Value} {w w' : Wire}

/-! ## From the wire value to the value -/

theorem eq_of_primitiveToWire {p : Primitive} (hv : v.primitiveToWire p = .ok w)
    (hu : u.primitiveToWire p = .ok w) : v = u := by
  have hraised := Wire.primitiveToValue_of_primitiveToWire hv
  rw [Wire.primitiveToValue_of_primitiveToWire hu] at hraised
  exact (Except.ok.inj hraised).symm

section Fields

variable {typeName : String} {declared : List Entity.Field}
  {fields fields' : List (String × Value)} {sent sent' : List (Option (Int16 × Wire))}

theorem id_of_send {f : Entity.Field} {given : List (String × (Ty → Except ValueError Wire))}
    {o : Option (Int16 × Wire)} (h : f.send typeName given = .ok o) :
    ∀ entry ∈ o, entry.1 = f.id := by
  intro entry hentry
  rcases Entity.Field.send_eq_ok.mp h with ⟨_, w, -, -, rfl⟩ | ⟨-, -, rfl⟩
  · cases hentry
    rfl
  · cases hentry

/-- **Under the id of a field is what was sent for it**, and nothing is there for a
field that was not set. -/
theorem lookup_sent (distinct : (declared.map Entity.Field.id).Nodup)
    (each : List.Forall₂ (fun f o =>
      f.send typeName (fields.map fun x => (x.1, x.2.toWire s)) = .ok o) declared sent)
    {f : Entity.Field} (hf : f ∈ declared) :
    Option.Rel (fun v w => v.toWire s f.type = .ok w) (fields.lookup f.name)
      (sent.reduceOption.lookup f.id) := by
  have hfound := forall₂_lookup_reduceOption distinct (each.imp fun f o => id_of_send)
  obtain ⟨o, -, ho, hlookup⟩ := exists_left_of_forall₂_and each.flip hfound.flip hf
  rw [hlookup]
  rw [Entity.Field.send_eq_ok, lookup_map_snd] at ho
  rcases ho with ⟨lower, w, hlower, hw, rfl⟩ | ⟨hnone, -, rfl⟩
  · obtain ⟨v, hv, rfl⟩ := Option.map_eq_some_iff.mp hlower
    rw [hv]
    exact .some hw
  · rw [Option.map_eq_none_iff.mp hnone]
    exact .none

/-- **Structs with the same fields on the wire are alike**, if what is sent for a
field tells what was set. -/
theorem alike_of_sent {kind : StructKind} (htold : Entity.Field.ToldApart kind declared)
    (known : ∀ x ∈ fields, x.1 ∈ declared.map Entity.Field.name)
    (known' : ∀ x ∈ fields', x.1 ∈ declared.map Entity.Field.name)
    (each : List.Forall₂ (fun f o =>
      f.send typeName (fields.map fun x => (x.1, x.2.toWire s)) = .ok o) declared sent)
    (each' : List.Forall₂ (fun f o =>
      f.send typeName (fields'.map fun x => (x.1, x.2.toWire s)) = .ok o) declared sent')
    (hsent : sent.reduceOption = sent'.reduceOption)
    (htells : ∀ x ∈ fields, ∀ ty w u, x.2.toWire s ty = .ok w → u.toWire s ty = .ok w →
      x.2.Alike u) :
    Alike (.struct typeName fields) (.struct typeName fields') := by
  -- a declared field is set in both to what is under its id, or in neither
  have hfield : ∀ f ∈ declared,
      (∃ v u w, fields.lookup f.name = some v ∧ fields'.lookup f.name = some u
          ∧ v.toWire s f.type = .ok w ∧ u.toWire s f.type = .ok w)
        ∨ fields.lookup f.name = none ∧ fields'.lookup f.name = none := by
    intro f hf
    have hset := lookup_sent htold.ids each hf
    have hset' := lookup_sent htold.ids each' hf
    rw [← hsent] at hset'
    generalize fields.lookup f.name = o at hset ⊢
    generalize fields'.lookup f.name = o' at hset' ⊢
    generalize sent.reduceOption.lookup f.id = under at hset hset'
    cases hset with
    | none =>
      cases hset'
      exact .inr ⟨rfl, rfl⟩
    | some hv =>
      cases hset' with | some hu =>
      exact .inl ⟨_, _, _, rfl, rfl, hv, hu⟩
  refine .struct (mem_names_iff known known' ?_) fun name v u hv hu => ?_
  · rw [List.forall_mem_map]
    intro f hf
    rcases hfield f hf with ⟨v, u, w, hv, hu, -, -⟩ | ⟨hnone, hnone'⟩
    · rw [hv, hu]
      rfl
    · rw [hnone, hnone']
  · have hmem : (name, v) ∈ fields := mem_of_lookup_eq_some hv
    obtain ⟨f, hf, rfl⟩ := List.mem_map.mp (known _ hmem)
    rcases hfield f hf with ⟨v', u', w, hv', hu', hw, hw'⟩ | ⟨hnone, -⟩
    · rw [hv] at hv'
      rw [hu] at hu'
      cases hv'
      cases hu'
      exact htells _ hmem f.type w u hw hw'
    · rw [hv] at hnone
      cases hnone

end Fields

/-- **Values that are sent as one wire value are alike**, in a scope that tells the
fields of its structs apart. -/
theorem alike_of_toWire (h : s.TellsApart) (hv : v.toWire s ty = .ok w)
    (hu : u.toWire s ty = .ok w') (heq : w = w') : v.Alike u := by
  induction v using Value.childInduction generalizing ty u w w' with
  | step v ih =>
    obtain ⟨shape, hshape, hlowers⟩ := toWire_eq_ok.mp hv
    have hlowers' := lowersAs_of_shape hu hshape
    cases hlowers with
    | primitive sent =>
      cases hlowers' with | primitive sent' =>
      subst heq
      obtain rfl := eq_of_primitiveToWire sent sent'
      exact .primitive (primitive?_of_primitiveToWire sent)
    | list announced each =>
      cases hlowers' with | list announced' each' =>
      cases heq
      exact .list (forall₂_of_common each each' fun v hv u w hw hw' => ih v hv hw hw' rfl)
    | set announced each =>
      cases hlowers' with | set announced' each' =>
      cases heq
      exact .set (forall₂_of_common each each' fun v hv u w hw hw' => ih v hv hw hw' rfl)
    | map keys values each =>
      cases hlowers' with | map keys' values' each' =>
      cases heq
      refine .map ?_ ?_
      · rw [List.forall₂_map_left_iff, List.forall₂_map_right_iff]
        exact forall₂_of_common each each' fun x hx y w hw hw' =>
          ih x.1 (key_mem_children hx) hw.1 hw'.1 rfl
      · rw [List.forall₂_map_left_iff, List.forall₂_map_right_iff]
        exact forall₂_of_common each each' fun x hx y w hw hw' =>
          ih x.2 (value_mem_children hx) hw.2 hw'.2 rfl
    | @item id e items n body member =>
      cases hlowers' with
      | item body' member' =>
        cases heq
        exact .item e.name n
      | struct body' =>
        rw [body] at body'
        cases body'
    | @struct id e kind declared fields sent body known single each =>
      cases hlowers' with
      | item body' =>
        rw [body] at body'
        cases body'
      | struct body' known' single' each' =>
        rw [body] at body'
        cases body'
        exact alike_of_sent (h id e kind declared (s.entity?_of_shape hshape) body)
          known known' each each' (Wire.struct.inj heq)
          fun x hx ty w u hw hw' => ih x.2 (List.mem_map_of_mem hx) hw hw' rfl

/-! ## From the value to the wire value -/

/-- A value of a primitive type is alike to itself only. -/
theorem Alike.eq_of_primitive? (h : v.Alike u) {p : Primitive} (hv : v.primitive? = some p) :
    u = v := by
  cases h with
  | primitive _ => rfl
  | item name n => cases hv
  | list each => cases hv
  | set each => cases hv
  | map keys values => cases hv
  | struct names each => cases hv

/-- **Values that are alike are sent as one wire value**, if both are sent. -/
theorem Alike.toWire_eq (halike : v.Alike u) (hv : v.toWire s ty = .ok w)
    (hu : u.toWire s ty = .ok w') : w = w' := by
  induction v using Value.childInduction generalizing ty u w w' with
  | step v ih =>
    obtain ⟨shape, hshape, hlowers⟩ := toWire_eq_ok.mp hv
    have hlowers' := lowersAs_of_shape hu hshape
    cases hlowers with
    | primitive sent =>
      obtain rfl := halike.eq_of_primitive? (primitive?_of_primitiveToWire sent)
      rw [hv] at hu
      exact Except.ok.inj hu
    | list announced each =>
      cases hlowers' with | list announced' each' =>
      cases halike with
      | primitive plain => cases plain
      | list halike =>
        rw [announced] at announced'
        cases announced'
        rw [eq_of_forall₂_pair halike each each' fun v hv u w w' hvu hw hw' =>
          ih v hv hvu hw hw']
    | set announced each =>
      cases hlowers' with | set announced' each' =>
      cases halike with
      | primitive plain => cases plain
      | set halike =>
        rw [announced] at announced'
        cases announced'
        rw [eq_of_forall₂_pair halike each each' fun v hv u w w' hvu hw hw' =>
          ih v hv hvu hw hw']
    | map keys values each =>
      cases hlowers' with | map keys' values' each' =>
      cases halike with
      | primitive plain => cases plain
      | map halikeKeys halikeValues =>
        rw [keys] at keys'
        rw [values] at values'
        cases keys'
        cases values'
        rw [List.forall₂_map_left_iff, List.forall₂_map_right_iff] at halikeKeys halikeValues
        have hkeys := eq_of_forall₂_pair halikeKeys
          (List.forall₂_map_right_iff.mpr (each.imp fun x w hw => hw.1))
          (List.forall₂_map_right_iff.mpr (each'.imp fun y w hw => hw.1))
          fun x hx y w w' hxy hw hw' => ih x.1 (key_mem_children hx) hxy hw hw'
        have hvalues := eq_of_forall₂_pair halikeValues
          (List.forall₂_map_right_iff.mpr (each.imp fun x w hw => hw.2))
          (List.forall₂_map_right_iff.mpr (each'.imp fun y w hw => hw.2))
          fun x hx y w w' hxy hw hw' => ih x.2 (value_mem_children hx) hxy hw hw'
        rw [eq_of_map_eq_map hkeys hvalues fun x y => Prod.ext]
    | @item id e items n body member =>
      cases halike with
      | primitive plain => cases plain
      | item =>
        rw [hv] at hu
        exact Except.ok.inj hu
    | @struct id e kind declared fields sent body known single each =>
      cases hlowers' with
      | item body' =>
        rw [body] at body'
        cases body'
      | struct body' known' single' each' =>
        rw [body] at body'
        cases body'
        cases halike with
        | primitive plain => cases plain
        | struct names halike =>
          -- what is sent for a field is the same for both
          rw [eq_of_forall₂ each each' fun f o o' ho ho' => ?_]
          rw [Entity.Field.send_eq_ok, lookup_map_snd] at ho ho'
          have hnames := names f.name
          rw [← lookup_isSome_iff_mem, ← lookup_isSome_iff_mem] at hnames
          rcases ho with ⟨_, w, hlower, hw, rfl⟩ | ⟨hnone, -, rfl⟩
          · obtain ⟨v, hv, rfl⟩ := Option.map_eq_some_iff.mp hlower
            rcases ho' with ⟨_, w', hlower', hw', rfl⟩ | ⟨hnone', -, -⟩
            · obtain ⟨u, hu, rfl⟩ := Option.map_eq_some_iff.mp hlower'
              rw [ih v (List.mem_map_of_mem (mem_of_lookup_eq_some hv))
                (halike f.name v u hv hu) hw hw']
            · rw [hv, Option.map_eq_none_iff.mp hnone'] at hnames
              cases hnames.mp rfl
          · rcases ho' with ⟨_, w', hlower', -, -⟩ | ⟨-, -, rfl⟩
            · obtain ⟨u, hu, rfl⟩ := Option.map_eq_some_iff.mp hlower'
              rw [hu, Option.map_eq_none_iff.mp hnone] at hnames
              cases hnames.mpr rfl
            · rfl

/-! ## Fields in another order -/

/-- **No struct in a value sets a field twice.** -/
def SetsOnce (v : Value) : Prop :=
  ∀ typeName fields, v.HasPart (.struct typeName fields) → (fields.map Prod.fst).Nodup

/-- **A value with the fields of its structs in another order.** The fields of a
struct, put into some order, have the names of those of the other one, and values
that are the same but for the order of fields. -/
inductive Shuffles : Value → Value → Prop
  | primitive {v : Value} {p : Primitive} (plain : v.primitive? = some p) : Shuffles v v
  | item (name : String) (n : Int32) : Shuffles (.enum name n) (.enum name n)
  | list {xs ys : List Value} (each : List.Forall₂ Shuffles xs ys) :
      Shuffles (.list xs) (.list ys)
  | set {xs ys : List Value} (each : List.Forall₂ Shuffles xs ys) :
      Shuffles (.set xs) (.set ys)
  | map {xs ys : List (Value × Value)}
      (keys : List.Forall₂ Shuffles (xs.map Prod.fst) (ys.map Prod.fst))
      (values : List.Forall₂ Shuffles (xs.map Prod.snd) (ys.map Prod.snd)) :
      Shuffles (.map xs) (.map ys)
  | struct {typeName : String} {xs ys ordered : List (String × Value)}
      (order : ordered.Perm ys) (names : xs.map Prod.fst = ordered.map Prod.fst)
      (each : List.Forall₂ Shuffles (xs.map Prod.snd) (ordered.map Prod.snd)) :
      Shuffles (.struct typeName xs) (.struct typeName ys)

/-- What a value is made of sets no field twice, if the value does not. -/
theorem SetsOnce.of_mem_children (h : v.SetsOnce) (hu : u ∈ v.children) : u.SetsOnce :=
  fun typeName fields hpart => h typeName fields (.head hu hpart)

/-- A value sets no field twice if it does not itself, and what it is made of does
not. -/
theorem setsOnce_of_children
    (hself : ∀ typeName fields, v = .struct typeName fields → (fields.map Prod.fst).Nodup)
    (hchildren : ∀ u ∈ v.children, u.SetsOnce) : v.SetsOnce := by
  intro typeName fields hpart
  rcases Relation.ReflTransGen.cases_head hpart with heq | ⟨u, hu, hpart⟩
  · exact hself typeName fields heq
  · exact hchildren u hu typeName fields hpart

/-- **Tables with the same names**, each of them once, have an order in common: the
second one can be put into the order of the first. -/
theorem exists_perm_of_names {xs ys : List (String × Value)}
    (hxs : (xs.map Prod.fst).Nodup) (hys : (ys.map Prod.fst).Nodup)
    (names : ∀ name, name ∈ xs.map Prod.fst ↔ name ∈ ys.map Prod.fst) :
    ∃ ordered, ordered.Perm ys
      ∧ List.Forall₂ (fun x y => x.1 = y.1 ∧ ys.lookup x.1 = some y.2) xs ordered := by
  set ordered := xs.map fun x => (x.1, (ys.lookup x.1).getD x.2) with hordered
  have hlookup : ∀ x ∈ xs, ∃ u, ys.lookup x.1 = some u := fun x hx =>
    Option.isSome_iff_exists.mp
      (lookup_isSome_iff_mem.mpr ((names x.1).mp (List.mem_map_of_mem hx)))
  have hfst : ordered.map Prod.fst = xs.map Prod.fst := by
    rw [hordered, List.map_map]
    rfl
  refine ⟨ordered, ?_, ?_⟩
  · refine (List.perm_ext_iff_of_nodup (hfst ▸ hxs).of_map hys.of_map).mpr fun y => ?_
    rw [hordered, List.mem_map]
    constructor
    · rintro ⟨x, hx, rfl⟩
      obtain ⟨u, hu⟩ := hlookup x hx
      rw [hu]
      exact mem_of_lookup_eq_some hu
    · intro hy
      obtain ⟨x, hx, hname⟩ := List.mem_map.mp ((names y.1).mpr (List.mem_map_of_mem hy))
      refine ⟨x, hx, ?_⟩
      rw [hname, (lookup_eq_some_iff_mem hys).mpr (show (y.1, y.2) ∈ ys from hy)]
      rfl
  · rw [hordered, List.forall₂_map_right_iff, List.forall₂_same]
    intro x hx
    obtain ⟨u, hu⟩ := hlookup x hx
    rw [hu]
    exact ⟨rfl, rfl⟩

/-- **Values that are alike differ in the order of fields only**, if they set no field
twice. -/
theorem Alike.shuffles (halike : v.Alike u) (hv : v.SetsOnce) (hu : u.SetsOnce) :
    v.Shuffles u := by
  induction v using Value.childInduction generalizing u with
  | step v ih =>
    have hitems : ∀ {xs ys : List Value}, (∀ x ∈ xs, x ∈ v.children) →
        (∀ y ∈ ys, y ∈ u.children) → List.Forall₂ Alike xs ys →
        List.Forall₂ Shuffles xs ys := by
      intro xs ys hxs hys heach
      rw [List.forall₂_iff_zip] at heach ⊢
      refine ⟨heach.1, fun hxy => ?_⟩
      have hx := hxs _ (List.of_mem_zip hxy).1
      have hy := hys _ (List.of_mem_zip hxy).2
      exact ih _ hx (heach.2 hxy) (hv.of_mem_children hx) (hu.of_mem_children hy)
    cases halike with
    | primitive plain => exact .primitive plain
    | item name n => exact .item name n
    | list each => exact .list (hitems (fun _ => id) (fun _ => id) each)
    | set each => exact .set (hitems (fun _ => id) (fun _ => id) each)
    | map keys values =>
      refine .map (hitems ?_ ?_ keys) (hitems ?_ ?_ values)
      · exact fun x => List.mem_append_left _
      · exact fun y => List.mem_append_left _
      · exact fun x => List.mem_append_right _
      · exact fun y => List.mem_append_right _
    | @struct typeName xs ys names each =>
      have hxs := hv typeName xs .refl
      have hys := hu typeName ys .refl
      obtain ⟨ordered, hperm, hordered⟩ := exists_perm_of_names hxs hys names
      refine .struct hperm (map_eq_map_iff_forall₂.mpr (hordered.imp fun x y h => h.1)) ?_
      rw [List.forall₂_map_left_iff, List.forall₂_map_right_iff]
      refine forall₂_imp_of_mem hordered fun x hx y hxy => ?_
      have hxchild : x.2 ∈ children (.struct typeName xs) := List.mem_map_of_mem hx
      have hychild : y.2 ∈ children (.struct typeName ys) :=
        List.mem_map_of_mem (mem_of_lookup_eq_some (hxy.1 ▸ hxy.2))
      have hx : xs.lookup x.1 = some x.2 := (lookup_eq_some_iff_mem hxs).mpr hx
      exact ih x.2 hxchild (each x.1 x.2 y.2 hx hxy.2) (hv.of_mem_children hxchild)
        (hu.of_mem_children hychild)

end Value

/-! ## Compiled documents -/

namespace Document

variable {d : Document} {name : String} {c : Compiled}

/-- **Only the order of fields is lost on the wire.** In the scope of a compiled
document, two values that are sent at one type are sent as the same wire value exactly
if they are alike. If besides they set no field twice, one of them is the other with
the fields of its structs in another order. -/
theorem toWire_eq_iff_alike_of_compile (hok : d.compile name = .ok c) {ty : Ty}
    {v u : Value} {w w' : Wire} (hv : v.toWire c.scope ty = .ok w)
    (hu : u.toWire c.scope ty = .ok w') :
    (w = w' ↔ v.Alike u) ∧ (w = w' → v.SetsOnce → u.SetsOnce → v.Shuffles u) := by
  have hsame := Value.alike_of_toWire (tellsApart_of_compile hok) hv hu
  exact ⟨⟨hsame, fun halike => halike.toWire_eq hv hu⟩, fun heq => (hsame heq).shuffles⟩

/-- A document with cards that have a suit, and a rank unless it is the lowest. -/
def cards : Document where
  headers := []
  definitions :=
    [⟨"Suit", ⟨1, 1⟩, .enum [⟨"clubs", none, ⟨1, 13⟩⟩, ⟨"hearts", none, ⟨1, 20⟩⟩]⟩,
      ⟨"Card", ⟨2, 1⟩, .struct .struct
        [⟨some 1, "suit", .named ⟨"Suit", ⟨3, 3⟩⟩, .required, none, ⟨3, 3⟩⟩,
          ⟨some 2, "rank", .primitive .i32, .unmarked, some (.int 1), ⟨4, 3⟩⟩]⟩,
      ⟨"Deck", ⟨5, 1⟩, .typedef (.list (.named ⟨"Card", ⟨5, 14⟩⟩))⟩]

def cardsScope : Scope where
  name := "cards"
  entities :=
    [⟨"Suit", ⟨1, 1⟩, true, .enum [⟨"clubs", 0, ⟨1, 13⟩⟩, ⟨"hearts", 1, ⟨1, 20⟩⟩]⟩,
      ⟨"Card", ⟨2, 1⟩, true, .struct .struct
        [⟨1, "suit", .named ⟨"Suit", ⟨3, 3⟩, some 0⟩, .required, none, none, ⟨3, 3⟩⟩,
          ⟨2, "rank", .primitive .i32, .unmarked, some (.int 1), some (.i32 1), ⟨4, 3⟩⟩]⟩,
      ⟨"Deck", ⟨5, 1⟩, true, .typedef (.list (.named ⟨"Card", ⟨5, 14⟩, some 1⟩))⟩]
  symbols := [("Suit", 0), ("Card", 1), ("Deck", 2)]

section

open Evaluation

theorem compile_cards : cards.compile "cards" = .ok ⟨cardsScope, []⟩ := by
  simp [cards, cardsScope]

end

/-- A deck of one card. -/
def deck (fields : List (String × Value)) : Value := .list [.struct "Card" fields]

def deckType : Ty := .named ⟨"Deck", ⟨9, 1⟩, none⟩

theorem setsOnce_deck {fields : List (String × Value)} (distinct : (fields.map Prod.fst).Nodup)
    (plain : ∀ x ∈ fields, x.2.SetsOnce) : (deck fields).SetsOnce := by
  refine Value.setsOnce_of_children (fun _ _ h => by cases h) fun u hu => ?_
  obtain rfl := List.mem_singleton.mp hu
  refine Value.setsOnce_of_children ?_ (List.forall_mem_map.mpr plain)
  rintro _ _ ⟨⟩
  exact distinct

/-- The lowest of the hearts is sent alike whichever of its fields was set first, and so
the two decks differ in the order of fields only. A card without a rank is received as
the lowest one too, but it is not sent alike. -/
theorem toWire_eq_iff_alike_cards :
    ∃ w w', cards.compile "cards" = .ok ⟨cardsScope, []⟩
      ∧ (deck [("suit", .enum "Suit" 1), ("rank", .i32 1)]).toWire cardsScope deckType = .ok w
      ∧ (deck [("rank", .i32 1), ("suit", .enum "Suit" 1)]).toWire cardsScope deckType = .ok w
      ∧ (deck [("suit", .enum "Suit" 1), ("rank", .i32 1)]).Shuffles
        (deck [("rank", .i32 1), ("suit", .enum "Suit" 1)])
      ∧ (deck [("suit", .enum "Suit" 1)]).toWire cardsScope deckType = .ok w'
      ∧ w.toValue cardsScope deckType = w'.toValue cardsScope deckType
      ∧ ¬ (deck [("suit", .enum "Suit" 1), ("rank", .i32 1)]).Alike
        (deck [("suit", .enum "Suit" 1)]) := by
  have hfirst : (deck [("suit", .enum "Suit" 1), ("rank", .i32 1)]).toWire cardsScope deckType
      = .ok (.list .struct [.struct [(1, .i32 1), (2, .i32 1)]]) := rfl
  have hsecond : (deck [("rank", .i32 1), ("suit", .enum "Suit" 1)]).toWire cardsScope deckType
      = .ok (.list .struct [.struct [(1, .i32 1), (2, .i32 1)]]) := rfl
  have hunset : (deck [("suit", .enum "Suit" 1)]).toWire cardsScope deckType
      = .ok (.list .struct [.struct [(1, .i32 1)]]) := rfl
  have hsuit : (Value.enum "Suit" 1).SetsOnce :=
    Value.setsOnce_of_children (fun _ _ h => by cases h) fun u hu => by cases hu
  have hrank : (Value.i32 1).SetsOnce :=
    Value.setsOnce_of_children (fun _ _ h => by cases h) fun u hu => by cases hu
  have hsame := toWire_eq_iff_alike_of_compile compile_cards hfirst hsecond
  have hother := toWire_eq_iff_alike_of_compile compile_cards hfirst hunset
  refine ⟨_, _, compile_cards, hfirst, hsecond,
    hsame.2 rfl (setsOnce_deck (by decide) ?_) (setsOnce_deck (by decide) ?_), hunset, rfl, ?_⟩
  · simpa using ⟨hsuit, hrank⟩
  · simpa using ⟨hrank, hsuit⟩
  · intro halike
    simpa using hother.1.mpr halike

end Document

end Interlink
