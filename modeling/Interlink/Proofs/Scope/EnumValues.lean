import Interlink.Proofs.Scope.Refused

/-!
# Values of enum items by their place

The items of an enum are numbered by a counter, which goes on from every value that the
document gives. What an item without a value gets can be said without the counter: the
last value given before it, and how far back that was (`EnumItem.Implies`). The invariant
that ties the two is that the counter, after the items before a place, is what the place
implies (`EnumItem.implies_iff`).

An item **offends** (`EnumItem.Offends`) if its name is not plain, if an earlier item has
its name, or if what its place implies is too large. Numbering fails exactly if there is
such an item, and reports the first one (`numberItems_eq_error_iff`). Where it succeeds,
values may be written out that it has assigned: the items are then numbered as before
(`EnumItem.NumberedAs.spellOut`).
-/

namespace Interlink

namespace EnumItem

variable {item : EnumItem} {items before after : List EnumItem} {j k : Nat}
  {next v w : Int} {numbered : List Entity.Item} {owner : String}
  {seen : Std.HashMap String Span} {fault fault' : CompileError}

/-! ## What a place implies -/

/-- The value that the document gives for the item at a place, if it gives one. -/
def valueAt? (items : List EnumItem) (k : Nat) : Option Int32 :=
  (items[k]?).bind EnumItem.value

/-- **What a place implies** for an item without a value. If `n` is the last value given
before it, at the place `j`, it is `n` and the distance from there; if there is none, it
is the place itself. -/
inductive Implies (items : List EnumItem) (k : Nat) : Int → Prop
  | after {j : Nat} {n : Int32} (earlier : j < k) (given : valueAt? items j = some n)
      (last : ∀ i, j < i → i < k → valueAt? items i = none) :
      Implies items k (n.toInt + (k - j : Nat))
  | first (nothing : ∀ i < k, valueAt? items i = none) : Implies items k k

theorem Implies.unique (hv : Implies items k v) (hw : Implies items k w) : v = w := by
  cases hv with
  | @after j n earlier given last =>
    cases hw with
    | @after j' n' earlier' given' last' =>
      rcases Nat.lt_trichotomy j j' with hlt | rfl | hlt
      · rw [last j' hlt earlier'] at given'
        cases given'
      · rw [given] at given'
        cases given'
        rfl
      · rw [last' j hlt earlier] at given
        cases given
    | first nothing =>
      rw [nothing j earlier] at given
      cases given
  | first nothing =>
    cases hw with
    | after earlier given last =>
      rw [nothing _ earlier] at given
      cases given
    | first => rfl

/-- What a place implies is not below the range of thirty-two bits. -/
theorem Implies.le (h : Implies items k v) : -0x80000000 ≤ v := by
  cases h with
  | @after j n earlier given last =>
    have hlow := n.le_toInt
    omega
  | first nothing => omega

/-- After an item with a value the next place implies the next number. -/
theorem implies_succ_of_given {n : Int32} (hgiven : valueAt? items k = some n) :
    Implies items (k + 1) (n.toInt + 1) := by
  have hafter : Implies items (k + 1) (n.toInt + (k + 1 - k : Nat)) :=
    .after (Nat.lt_succ_self k) hgiven fun i hi hi' => by omega
  rwa [Nat.add_sub_cancel_left] at hafter

/-- **After an item without a value, the next place implies one more.** -/
theorem Implies.succ (h : Implies items k v) (hnone : valueAt? items k = none) :
    Implies items (k + 1) (v + 1) := by
  have hnone' : ∀ i, i < k + 1 → (i < k → valueAt? items i = none) →
      valueAt? items i = none := by
    intro i hi hbefore
    rcases Nat.lt_succ_iff_lt_or_eq.mp hi with hlt | rfl
    · exact hbefore hlt
    · exact hnone
  cases h with
  | @after j n earlier given last =>
    have hafter : Implies items (k + 1) (n.toInt + (k + 1 - j : Nat)) :=
      .after (Nat.lt_succ_of_lt earlier) given fun i hi hi' => hnone' i hi' (last i hi)
    have hsum : n.toInt + ((k - j : Nat) : Int) + 1 = n.toInt + (k + 1 - j : Nat) := by
      omega
    rwa [hsum]
  | first nothing => exact .first fun i hi => hnone' i hi (nothing i)

/-! ## The counter -/

/-- An item has no value if the document gives none, and the next one is too large. -/
theorem value?_eq_none : item.value? next = none ↔ item.value = none ∧ 0x80000000 ≤ next := by
  unfold value?
  cases item.value with
  | some n => simp
  | none => simp

/-- The counter after some items. -/
def counter (next : Int) : List EnumItem → Int
  | [] => next
  | item :: items => counter ((item.value.map Int32.toInt).getD next + 1) items

theorem counter_append (next : Int) (before after : List EnumItem) :
    counter next (before ++ after) = counter (counter next before) after := by
  induction before generalizing next with
  | nil => rfl
  | cons item before ih => exact ih _

/-- The number of the item at a place is its own value, or the counter after the items
before it. -/
theorem getElem?_numbered (next : Int) (items : List EnumItem) (k : Nat) :
    (EnumItem.numbered next items)[k]?
      = (items[k]?).map fun item => (item.name,
        (item.value.map Int32.toInt).getD (counter next (items.take k))) := by
  induction items generalizing next k with
  | nil => rfl
  | cons item items ih =>
    cases k with
    | zero => rfl
    | succ k => exact ih _ k

/-- **The counter is what the place implies.** -/
theorem implies_counter (hk : k ≤ items.length) :
    Implies items k (counter 0 (items.take k)) := by
  induction k with
  | zero => exact .first fun i hi => absurd hi (Nat.not_lt_zero i)
  | succ k ih =>
    have hvalue : valueAt? items k = items[k].value := by
      rw [valueAt?, List.getElem?_eq_getElem hk, Option.bind_some]
    rw [List.take_succ_eq_append_getElem hk, counter_append]
    show Implies items (k + 1)
      ((items[k].value.map Int32.toInt).getD (counter 0 (items.take k)) + 1)
    cases hgiven : items[k].value with
    | some n => exact implies_succ_of_given (hvalue.trans hgiven)
    | none => exact (ih (Nat.le_of_succ_le hk)).succ (hvalue.trans hgiven)

/-- What a place implies is the counter after the items before it. -/
theorem implies_iff (hk : k ≤ items.length) :
    Implies items k v ↔ v = counter 0 (items.take k) := by
  constructor
  · intro h
    exact h.unique (implies_counter hk)
  · rintro rfl
    exact implies_counter hk

/-- What the place behind some items implies is the counter after them. -/
theorem implies_append_iff :
    Implies (before ++ after) before.length v ↔ v = counter 0 before := by
  rw [implies_iff (by simp), List.take_left]

/-! ## Items that are numbered -/

/-- **No value is too large** exactly if none is that an item gets by its place. -/
theorem fits_iff :
    (∀ x ∈ EnumItem.numbered 0 items, x.2 ≤ 0x7fffffff) ↔
      ∀ k item v, items[k]? = some item → item.value = none → Implies items k v →
        v ≤ 0x7fffffff := by
  constructor
  · intro h k item v hitem hnone himplies
    have hk : k ≤ items.length := Nat.le_of_lt (List.getElem?_eq_some_iff.mp hitem).1
    have hnumber := getElem?_numbered 0 items k
    rw [hitem, Option.map_some, hnone, ← (implies_iff hk).mp himplies] at hnumber
    exact h _ (List.mem_of_getElem? hnumber)
  · intro h x hx
    obtain ⟨k, hk⟩ := List.mem_iff_getElem?.mp hx
    rw [getElem?_numbered, Option.map_eq_some_iff] at hk
    obtain ⟨item, hitem, rfl⟩ := hk
    cases hvalue : item.value with
    | some n =>
      have hlt := n.toInt_lt
      show n.toInt ≤ 0x7fffffff
      omega
    | none =>
      have hlength : k ≤ items.length := Nat.le_of_lt (List.getElem?_eq_some_iff.mp hitem).1
      exact h k item _ hitem hvalue (implies_counter hlength)

/-- **The items of an enum, numbered by their places**: with their names and spans, in their
order, with the values that the document gives, and otherwise those that their places
imply. -/
structure NumberedByPlace (items : List EnumItem) (numbered : List Entity.Item) : Prop where
  /-- The names. -/
  names : numbered.map Entity.Item.name = items.map EnumItem.name
  /-- The spans. -/
  spans : numbered.map Entity.Item.span = items.map EnumItem.span
  /-- A value that is given is kept. -/
  given : ∀ (k : Nat) (item : EnumItem) (n : Int32), items[k]? = some item →
    item.value = some n → (numbered[k]?).map Entity.Item.value = some n
  /-- Any other is the one that the place implies. -/
  implied : ∀ (k : Nat) (item : EnumItem), items[k]? = some item → item.value = none →
    ∃ n, (numbered[k]?).map Entity.Item.value = some n ∧ Implies items k n.toInt

/-- The items with their numbers are numbered by their places. -/
theorem NumberedAs.byPlace (h : NumberedAs items 0 numbered) :
    NumberedByPlace items numbered := by
  have hvalue : ∀ (k : Nat) (item : EnumItem), items[k]? = some item → ∃ n,
      (numbered[k]?).map Entity.Item.value = some n
        ∧ n.toInt = (item.value.map Int32.toInt).getD (counter 0 (items.take k)) := by
    intro k item hitem
    have hnumber := congrArg (·[k]?) h.numbers
    simp only [getElem?_numbered, hitem, List.getElem?_map, Option.map_some,
      Option.map_eq_some_iff, Prod.mk.injEq] at hnumber
    obtain ⟨x, hx, -, hn⟩ := hnumber
    exact ⟨x.value, by rw [hx, Option.map_some], hn⟩
  refine ⟨h.map_name, h.spans, fun k item n hitem hn => ?_, fun k item hitem hnone => ?_⟩
  · obtain ⟨n', hn', heq⟩ := hvalue k item hitem
    rw [hn, Option.map_some, Option.getD_some, Int32.toInt_inj] at heq
    exact heq ▸ hn'
  · obtain ⟨n, hn, heq⟩ := hvalue k item hitem
    rw [hnone, Option.map_none, Option.getD_none] at heq
    have hk : k ≤ items.length := Nat.le_of_lt (List.getElem?_eq_some_iff.mp hitem).1
    exact ⟨n, hn, (implies_iff hk).mpr heq⟩

/-! ## Values that are written out -/

/-- **The items with some of their values written out**, those at the places that are
chosen. -/
def spellOut (chosen : Nat → Bool) (items : List EnumItem) (numbered : List Entity.Item) :
    List EnumItem :=
  items.mapIdx fun k item =>
    if chosen k then { item with value := (numbered[k]?).map Entity.Item.value } else item

theorem spellOut_cons (chosen : Nat → Bool) (item : EnumItem) (items : List EnumItem)
    (x : Entity.Item) (numbered : List Entity.Item) :
    spellOut chosen (item :: items) (x :: numbered)
      = (if chosen 0 then { item with value := some x.value } else item)
        :: spellOut (fun k => chosen (k + 1)) items numbered := by
  rw [spellOut, List.mapIdx_cons]
  rfl

/-- Writing out values changes no name. -/
theorem map_name_spellOut (chosen : Nat → Bool) (items : List EnumItem)
    (numbered : List Entity.Item) :
    (spellOut chosen items numbered).map EnumItem.name = items.map EnumItem.name := by
  refine List.ext_getElem? fun k => ?_
  rw [spellOut, List.getElem?_map, List.getElem?_map, List.getElem?_mapIdx, Option.map_map]
  refine Option.map_congr fun item _ => ?_
  show (if chosen k then _ else item).name = item.name
  split <;> rfl

/-- **Values that are written out are numbered as before.** -/
theorem NumberedAs.spellOut (hnext : -0x80000000 ≤ next)
    (h : NumberedAs items next numbered) (chosen : Nat → Bool) :
    NumberedAs (spellOut chosen items numbered) next numbered := by
  induction items generalizing next numbered chosen with
  | nil => exact h
  | cons item items ih =>
    obtain ⟨n, rest, hn, hrest, rfl⟩ := (numberedAs_cons hnext).mp h
    have hlow := n.le_toInt
    rw [spellOut_cons, numberedAs_cons hnext]
    refine ⟨n, rest, ?_, ih (by omega) hrest _, ?_⟩
    · split
      · rfl
      · exact hn
    · split <;> rfl

/-! ## Items that offend -/

/-- **The item at a place offends**, with what is reported then. The name is looked at
first, then whether an earlier item has it, and last the value. -/
inductive Offends (owner : String) (items : List EnumItem) (k : Nat) (item : EnumItem) :
    CompileError → Prop
  | name (wrong : ¬ IsPlain item.name) :
      Offends owner items k item
        (.invalid (qualified owner item.name) item.span .itemName)
  | taken {x : EnumItem} {j : Nat} (plain : IsPlain item.name) (earlier : j < k)
      (there : items[j]? = some x) (same : x.name = item.name) :
      Offends owner items k item
        (.duplicate (qualified owner item.name) item.span x.span)
  | overflow {v : Int} (plain : IsPlain item.name)
      (fresh : ∀ (j : Nat) (x : EnumItem), j < k → items[j]? = some x → x.name ≠ item.name)
      (implicit : item.value = none) (implies : Implies items k v)
      (large : 0x7fffffff < v) :
      Offends owner items k item
        (.invalid (qualified owner item.name) item.span .itemOverflow)

/-- **The first item that offends**, with its place and with what is reported. -/
structure OffendsFirst (owner : String) (items : List EnumItem) (k : Nat) (item : EnumItem)
    (fault : CompileError) : Prop where
  /-- The item is there. -/
  here : items[k]? = some item
  /-- It offends. -/
  offends : Offends owner items k item fault
  /-- No item before it does. -/
  first : ∀ (i : Nat) (x : EnumItem), i < k → items[i]? = some x →
    ∀ other, ¬ Offends owner items i x other

/-- Why an item offends. -/
theorem Offends.reason (h : Offends owner items k item fault) :
    ¬ IsPlain item.name
      ∨ (∃ (j : Nat) (x : EnumItem), j < k ∧ items[j]? = some x ∧ x.name = item.name)
      ∨ item.value = none ∧ ∃ v, Implies items k v ∧ 0x7fffffff < v := by
  cases h with
  | name wrong => exact .inl wrong
  | taken plain earlier there same => exact .inr (.inl ⟨_, _, earlier, there, same⟩)
  | overflow plain fresh implicit implies large =>
    exact .inr (.inr ⟨implicit, _, implies, large⟩)

/-- Items with one name are one, if neither of them offends. -/
theorem eq_of_name_eq {i j : Nat} {x y : EnumItem} (hx : items[i]? = some x)
    (hy : items[j]? = some y) (plain : IsPlain x.name) (same : x.name = y.name)
    (hi : ∀ other, ¬ Offends owner items i x other)
    (hj : ∀ other, ¬ Offends owner items j y other) : i = j := by
  rcases Nat.lt_trichotomy i j with hlt | heq | hlt
  · exact absurd (.taken (same ▸ plain) hlt hx same) (hj _)
  · exact heq
  · exact absurd (.taken plain hlt hy same.symm) (hi _)

/-- **There is one first item that offends**, and one thing that is reported of it. -/
theorem OffendsFirst.unique {y : EnumItem} (h : OffendsFirst owner items k item fault)
    (h' : OffendsFirst owner items j y fault') : fault = fault' := by
  obtain rfl : k = j := by
    rcases Nat.lt_trichotomy k j with hlt | heq | hlt
    · exact absurd h.offends (h'.first k item hlt h.here fault)
    · exact heq
    · exact absurd h'.offends (h.first j y hlt h'.here fault')
  cases Option.some.inj (h.here.symm.trans h'.here)
  cases h.offends with
  | name wrong =>
    cases h'.offends with
    | name => rfl
    | taken plain' => exact absurd plain' wrong
    | overflow plain' => exact absurd plain' wrong
  | @taken x i plain earlier there same =>
    cases h'.offends with
    | name wrong' => exact absurd plain wrong'
    | @taken x' i' plain' earlier' there' same' =>
      -- neither of the earlier items offends, so they are one
      obtain rfl : i = i' := eq_of_name_eq there there' (same ▸ plain)
        (same.trans same'.symm) (h.first i x earlier there) (h.first i' x' earlier' there')
      cases Option.some.inj (there.symm.trans there')
      rfl
    | overflow plain' fresh' => exact absurd same (fresh' i x earlier there)
  | overflow plain fresh =>
    cases h'.offends with
    | name wrong' => exact absurd plain wrong'
    | taken plain' earlier' there' same' => exact absurd same' (fresh _ _ earlier' there')
    | overflow => rfl

end EnumItem

/-! ## Numbering that fails -/

section Failing

open EnumItem

variable {item : EnumItem} {items before : List EnumItem} {owner : String}
  {numbered : List Entity.Item} {seen : Std.HashMap String Span} {fault : CompileError}

/-- No item offends if all of them are numbered. -/
theorem not_offends_of_numberItems (hok : numberItems owner 0 ∅ items = .ok numbered) {k : Nat}
    (hitem : items[k]? = some item) (other : CompileError) :
    ¬ Offends owner items k item other := by
  obtain ⟨hplain, hnodup, -, hnumbered⟩ := (numberItems_eq_ok (by omega)).mp hok
  have hfits := fits_iff.mp ((exists_numberedAs (by omega)).mp ⟨numbered, hnumbered⟩)
  intro h
  rcases h.reason with hwrong | ⟨j, x, hj, hx, hsame⟩ | ⟨hnone, v, hv, hlarge⟩
  · exact hwrong (hplain item (List.mem_of_getElem? hitem))
  · have hlength : j < (items.map EnumItem.name).length := by
      rw [List.length_map]
      exact (List.getElem?_eq_some_iff.mp hx).1
    have hjk : j = k := by
      refine (List.getElem?_inj hlength hnodup).mp ?_
      rw [List.getElem?_map, List.getElem?_map, hx, hitem, Option.map_some,
        Option.map_some, hsame]
    omega
  · have := hfits k item v hitem hnone hv
    omega

/-- **A table has the items before a place**: their names, each with the span of an item
that has it. -/
structure Records (before : List EnumItem) (seen : Std.HashMap String Span) : Prop where
  /-- It has nothing else. -/
  remembers : Remembers EnumItem.name EnumItem.span before seen
  /-- It has all names. -/
  names : ∀ x ∈ before, x.name ∈ seen

theorem records_nil : Records [] ∅ :=
  ⟨remembers_empty, fun _ hx => absurd hx List.not_mem_nil⟩

theorem Records.insert (h : Records before seen) (item : EnumItem) :
    Records (before ++ [item]) (seen.insert item.name item.span) := by
  refine ⟨h.remembers.insert item, fun x hx => ?_⟩
  rw [Std.HashMap.mem_insert]
  rcases List.mem_append.mp hx with hx | hx
  · exact .inr (h.names x hx)
  · rw [List.mem_singleton.mp hx]
    exact .inl (beq_self_eq_true _)

/-- What a table has for a name is the span of an earlier item with it. -/
theorem Records.exists_earlier (h : Records before seen) {name : String} {first : Span}
    (hfirst : seen[name]? = some first) (items : List EnumItem) :
    ∃ (j : Nat) (x : EnumItem), j < before.length ∧ (before ++ items)[j]? = some x
      ∧ x.name = name ∧ x.span = first := by
  obtain ⟨x, hx, hsame, hspan⟩ := h.remembers name first hfirst
  obtain ⟨j, hj⟩ := List.mem_iff_getElem?.mp hx
  have hlt : j < before.length := (List.getElem?_eq_some_iff.mp hj).1
  refine ⟨j, x, hlt, ?_, hsame, hspan⟩
  rw [List.getElem?_append_left hlt, hj]

/-- A name that a table does not have is the name of no earlier item. -/
theorem Records.name_ne (h : Records before seen) {name : String} (hnew : name ∉ seen)
    (items : List EnumItem) (j : Nat) (x : EnumItem) (hj : j < before.length)
    (hx : (before ++ items)[j]? = some x) : x.name ≠ name := by
  rw [List.getElem?_append_left hj] at hx
  intro hsame
  exact hnew (hsame ▸ h.names x (List.mem_of_getElem? hx))

/-- **One item is numbered**: it offends, and that is reported, or it does not, and the items
behind it are numbered. -/
theorem numberItems_step (h : Records before seen) (owner : String) (item : EnumItem)
    (items : List EnumItem) :
    (∃ fault, Offends owner (before ++ item :: items) before.length item fault
        ∧ numberItems owner (counter 0 before) seen (item :: items) = .error fault)
      ∨ (∀ other, ¬ Offends owner (before ++ item :: items) before.length item other)
        ∧ ∃ x, numberItems owner (counter 0 before) seen (item :: items)
          = (x :: ·) <$> numberItems owner (counter 0 (before ++ [item]))
            (seen.insert item.name item.span) items := by
  have himplies : Implies (before ++ item :: items) before.length (counter 0 before) :=
    implies_append_iff.mpr rfl
  by_cases hplain : IsPlain item.name
  · have hname : (nameFault? item.name).isSome = false := by
      rw [nameFault?_eq_none.mpr hplain]
      rfl
    cases hfirst : seen[item.name]? with
    | some first =>
      obtain ⟨j, x, hlt, hthere, hsame, rfl⟩ := h.exists_earlier hfirst (item :: items)
      refine .inl ⟨_, .taken hplain hlt hthere hsame, ?_⟩
      simp only [numberItems, hname, hfirst, Bool.false_eq_true, if_false]
    | none =>
      have hnew : item.name ∉ seen := by simpa using hfirst
      have hfresh := h.name_ne hnew (item :: items)
      cases hn : item.value? (counter 0 before) with
      | none =>
        obtain ⟨himplicit, hlarge⟩ := value?_eq_none.mp hn
        refine .inl ⟨_, .overflow hplain hfresh himplicit himplies (by omega), ?_⟩
        simp only [numberItems, hname, hfirst, hn, Bool.false_eq_true, if_false]
      | some n =>
        have hcounter : counter 0 (before ++ [item]) = n.toInt + 1 := by
          rw [counter_append, (value?_eq_some himplies.le).mp hn]
          rfl
        refine .inr ⟨fun other hother => ?_, ⟨item.name, n, item.span⟩, ?_⟩
        · rcases hother.reason with hwrong | ⟨j, x, hj, hx, hsame⟩ | ⟨hnone, v, hv, hlarge⟩
          · exact hwrong hplain
          · exact hfresh j x hj hx hsame
          · rw [hv.unique himplies] at hlarge
            rw [value?_eq_none.mpr ⟨hnone, by omega⟩] at hn
            cases hn
        · rw [hcounter]
          exact numberItems_cons hplain hnew hn
  · have hname : (nameFault? item.name).isSome = true :=
      Option.isSome_iff_ne_none.mpr fun h => hplain (nameFault?_eq_none.mp h)
    refine .inl ⟨_, .name hplain, ?_⟩
    simp only [numberItems, hname, if_true]

/-- **Numbering stops at the first item that offends**, among those that are left. -/
theorem exists_offends_of_numberItems (h : Records before seen)
    (hbefore : ∀ (i : Nat) (x : EnumItem), i < before.length → (before ++ items)[i]? = some x →
      ∀ other, ¬ Offends owner (before ++ items) i x other)
    (herr : numberItems owner (counter 0 before) seen items = .error fault) :
    ∃ k item, OffendsFirst owner (before ++ items) k item fault := by
  induction items generalizing before seen with
  | nil => cases herr
  | cons item items ih =>
    have hhere : (before ++ item :: items)[before.length]? = some item := by simp
    rcases numberItems_step h owner item items with
      ⟨fault', hoffends, hfault⟩ | ⟨hsound, x, hrest⟩
    · rw [hfault] at herr
      cases herr
      exact ⟨before.length, item, hhere, hoffends, hbefore⟩
    · rw [hrest, map_eq_error] at herr
      have happend : before ++ item :: items = before ++ [item] ++ items := by simp
      rw [happend] at hbefore hhere hsound ⊢
      refine ih (h.insert item) (fun i y hi hy => ?_) herr
      rw [List.length_append, List.length_singleton] at hi
      rcases Nat.lt_succ_iff_lt_or_eq.mp hi with hlt | rfl
      · exact hbefore i y hlt hy
      · cases Option.some.inj (hhere.symm.trans hy)
        exact hsound

/-- **Numbering reports the first item that offends.** -/
theorem numberItems_eq_error_iff :
    numberItems owner 0 ∅ items = .error fault ↔
      ∃ k item, OffendsFirst owner items k item fault := by
  have hfirst : ∀ {fault}, numberItems owner 0 ∅ items = .error fault →
      ∃ k item, OffendsFirst owner items k item fault := by
    intro fault herr
    exact exists_offends_of_numberItems records_nil
      (fun i _ hi => absurd hi (Nat.not_lt_zero i)) herr
  refine ⟨hfirst, ?_⟩
  rintro ⟨k, item, h⟩
  cases hresult : numberItems owner 0 ∅ items with
  | ok numbered => exact absurd h.offends (not_offends_of_numberItems hresult h.here fault)
  | error fault' =>
    obtain ⟨k', item', h'⟩ := hfirst hresult
    rw [h.unique h']

end Failing

/-! ## Enums -/

/-- **The values of an enum.** A definition of an enum declares a body exactly if the names of
the items are plain and different, and if no place implies a value that is too large. The
items are then numbered by their places, and so they are if any of the values are written
out. Otherwise the first item that offends is reported. -/
theorem Definition.toBody_enum_by_place (name : String) (span : Span) (items : List EnumItem) :
    ((∃ body, (Definition.mk name span (.enum items)).toBody = .ok body) ↔
      (∀ item ∈ items, item.name ≠ "" ∧ '.' ∉ item.name.toList)
        ∧ (items.map EnumItem.name).Nodup
        ∧ ∀ (k : Nat) (item : EnumItem) (v : Int), items[k]? = some item →
          item.value = none → EnumItem.Implies items k v → v ≤ 0x7fffffff)
    ∧ (∀ body, (Definition.mk name span (.enum items)).toBody = .ok body →
        ∃ numbered, body = .enum numbered ∧ EnumItem.NumberedByPlace items numbered
          ∧ ∀ chosen : Nat → Bool,
            (Definition.mk name span (.enum (EnumItem.spellOut chosen items numbered))).toBody
              = .ok body)
    ∧ ∀ fault, (Definition.mk name span (.enum items)).toBody = .error fault ↔
        ∃ k item, EnumItem.OffendsFirst name items k item fault := by
  have hlow : -0x80000000 ≤ (0 : Int) := by omega
  have htoBody : ∀ items, (Definition.mk name span (.enum items)).toBody
      = .enum <$> numberItems name 0 ∅ items := fun _ => rfl
  simp only [htoBody]
  refine ⟨?_, fun body hbody => ?_, fun fault => ?_⟩
  · rw [exists_map_eq_ok, ← EnumItem.fits_iff, ← EnumItem.exists_numberedAs hlow]
    simp only [numberItems_eq_ok hlow]
    constructor
    · rintro ⟨numbered, hplain, hnodup, -, hnumbered⟩
      exact ⟨hplain, hnodup, numbered, hnumbered⟩
    · rintro ⟨hplain, hnodup, numbered, hnumbered⟩
      exact ⟨numbered, hplain, hnodup, fun _ _ => Std.HashMap.not_mem_empty, hnumbered⟩
  · obtain ⟨numbered, hok, rfl⟩ := map_eq_ok.mp hbody
    obtain ⟨hplain, hnodup, -, hnumbered⟩ := (numberItems_eq_ok hlow).mp hok
    refine ⟨numbered, rfl, hnumbered.byPlace, fun chosen => ?_⟩
    refine map_eq_ok.mpr ⟨numbered, (numberItems_eq_ok hlow).mpr
      ⟨?_, ?_, fun _ _ => Std.HashMap.not_mem_empty, hnumbered.spellOut hlow chosen⟩, rfl⟩
    · -- the names are those of the items
      intro item hitem
      have hname := List.mem_map_of_mem (f := EnumItem.name) hitem
      rw [EnumItem.map_name_spellOut] at hname
      obtain ⟨x, hx, hsame⟩ := List.mem_map.mp hname
      exact hsame ▸ hplain x hx
    · rwa [EnumItem.map_name_spellOut]
  · rw [map_eq_error, numberItems_eq_error_iff]

namespace EnumItem

/-- Items with a value below zero, and with the largest one. -/
def levels : List EnumItem :=
  [⟨"OFF", none, ⟨2, 3⟩⟩, ⟨"LOW", some (-2), ⟨3, 3⟩⟩, ⟨"MIDDLE", none, ⟨4, 3⟩⟩,
    ⟨"TOP", some 2147483647, ⟨5, 3⟩⟩]

/-- The levels with their values. -/
def numberedLevels : List Entity.Item :=
  [⟨"OFF", 0, ⟨2, 3⟩⟩, ⟨"LOW", -2, ⟨3, 3⟩⟩, ⟨"MIDDLE", -1, ⟨4, 3⟩⟩,
    ⟨"TOP", 2147483647, ⟨5, 3⟩⟩]

/-- The levels are numbered, also if the value of the third is written out. -/
theorem toBody_levels :
    (Definition.mk "Level" ⟨1, 1⟩ (.enum levels)).toBody = .ok (.enum numberedLevels)
      ∧ NumberedByPlace levels numberedLevels
      ∧ (Definition.mk "Level" ⟨1, 1⟩
          (.enum (spellOut (fun k => k == 2) levels numberedLevels))).toBody
        = .ok (.enum numberedLevels) := by
  have hnumbered : NumberedAs levels 0 numberedLevels := ⟨by decide, by decide⟩
  have hplain : ∀ item ∈ levels, item.name ≠ "" ∧ '.' ∉ item.name.toList := by decide
  have hlevels : numberItems "Level" 0 ∅ levels = .ok numberedLevels :=
    (numberItems_eq_ok (by decide)).mpr
      ⟨hplain, by decide, fun _ _ => Std.HashMap.not_mem_empty, hnumbered⟩
  have hok : (Definition.mk "Level" ⟨1, 1⟩ (.enum levels)).toBody
      = .ok (.enum numberedLevels) := map_eq_ok.mpr ⟨_, hlevels, rfl⟩
  obtain ⟨-, hbodies, -⟩ := Definition.toBody_enum_by_place "Level" ⟨1, 1⟩ levels
  obtain ⟨numbered, hbody, hplace, hspell⟩ := hbodies _ hok
  cases hbody
  exact ⟨hok, hplace, hspell _⟩

end EnumItem

end Interlink
