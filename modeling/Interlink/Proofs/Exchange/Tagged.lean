import Interlink.Proofs.Exchange.Lossless

/-!
# What is sent is what it says it is

A container announces the tag of its items, which it takes from the type; the items
are lowered one by one, and each has a tag of its own. Whoever receives a payload
expects a tag, which is again that of the type. All of these are the same tag.

`Scope.Lays` says by the type alone how a wire value is laid out: containers announce
the tags of the types of their items, and the fields of a struct are declared ones, in
the order of their declaration and each once. What is sent at a type is laid out so
(`Value.lays_of_toWire`). Then it has the tag of the type (`Scope.Lays.tag_eq`), and
what its containers announce is true, all the way down (`Scope.Lays.isTruthful`).

So a payload is never refused for its tag, in whatever protocol it is, as long as
what is written can be read (`Codec.Undoes`).
-/

namespace Interlink

/-! ## What containers announce -/

namespace Wire

/-- **What a container announces is true**: its items have the tags that it says. -/
def AnnouncesTruly : Wire → Prop
  | .list element items => ∀ w ∈ items, w.tag = element
  | .set element items => ∀ w ∈ items, w.tag = element
  | .map key value entries => ∀ x ∈ entries, x.1.tag = key ∧ x.2.tag = value
  | _ => True

/-- **A wire value is truthful** if what is announced in it is true, all the way
down. -/
def IsTruthful (w : Wire) : Prop := ∀ part, w.HasPart part → part.AnnouncesTruly

/-- A wire value with the tag of a primitive type announces nothing and has no
parts. -/
theorem isTruthful_of_primitive {w : Wire} {p : Primitive} (h : w.tag = p.tag) :
    w.IsTruthful := by
  have hplain : w.AnnouncesTruly ∧ w.children = [] := by
    cases w with
    | struct fields => cases p <;> cases h
    | map key value entries => cases p <;> cases h
    | set element items => cases p <;> cases h
    | list element items => cases p <;> cases h
    | _ => exact ⟨trivial, rfl⟩
  refine forall_hasPart.mpr ⟨hplain.1, ?_⟩
  rw [hplain.2]
  exact fun u hu => absurd hu List.not_mem_nil

end Wire

/-- **How a wire value is laid out at a type.** It has the tag of a primitive type; it
is a container that announces the tags of the types of its items, which are laid out
at these; it is a number for an enum; or its fields are some of those that the struct
declares, in their order and each once, laid out at their types. -/
inductive Scope.Lays (s : Scope) : Ty → Wire → Prop
  | primitive {ty : Ty} {p : Primitive} {w : Wire}
      (shape : s.shape ty = .ok (.primitive p)) (tag : w.tag = p.tag) : Lays s ty w
  | list {ty element : Ty} {tag : Wire.Tag} {items : List Wire}
      (shape : s.shape ty = .ok (.list element)) (announced : element.tag s = .ok tag)
      (each : ∀ w ∈ items, Lays s element w) : Lays s ty (.list tag items)
  | set {ty element : Ty} {tag : Wire.Tag} {items : List Wire}
      (shape : s.shape ty = .ok (.set element)) (announced : element.tag s = .ok tag)
      (each : ∀ w ∈ items, Lays s element w) : Lays s ty (.set tag items)
  | map {ty key value : Ty} {keyTag valueTag : Wire.Tag} {entries : List (Wire × Wire)}
      (shape : s.shape ty = .ok (.map key value)) (announcedKey : key.tag s = .ok keyTag)
      (announcedValue : value.tag s = .ok valueTag)
      (keys : ∀ x ∈ entries, Lays s key x.1) (values : ∀ x ∈ entries, Lays s value x.2) :
      Lays s ty (.map keyTag valueTag entries)
  | item {ty : Ty} {id : EntityId} {e : Entity} {items : List Entity.Item} (n : Int32)
      (shape : s.shape ty = .ok (.entity id e)) (body : e.body = .enum items) :
      Lays s ty (.i32 n)
  | struct {ty : Ty} {id : EntityId} {e : Entity} {kind : StructKind}
      {declared : List Entity.Field} {fields : List (Int16 × Wire)}
      (shape : s.shape ty = .ok (.entity id e)) (body : e.body = .struct kind declared)
      (order : (fields.map Prod.fst).Sublist (declared.map Entity.Field.id))
      (distinct : (fields.map Prod.fst).Nodup)
      (each : ∀ f ∈ declared, ∀ w, (f.id, w) ∈ fields → Lays s f.type w) :
      Lays s ty (.struct fields)

variable {s : Scope} {ty : Ty} {v : Value} {w : Wire}

/-- **What is laid out at a type has its tag.** -/
theorem Scope.Lays.tag_eq (h : s.Lays ty w) : ty.tag s = .ok w.tag := by
  cases h with
  | primitive shape tag => rw [tag_of_shape shape, tag, Shape.tag]
  | list shape => exact tag_of_shape shape
  | set shape => exact tag_of_shape shape
  | map shape => exact tag_of_shape shape
  | item n shape body =>
    rw [tag_of_shape shape, Shape.tag, body]
    rfl
  | struct shape body =>
    rw [tag_of_shape shape, Shape.tag, body]
    rfl

/-- An item that is laid out at a type has the tag that is announced for it. -/
theorem Scope.Lays.tag_eq_announced (h : s.Lays ty w) {tag : Wire.Tag}
    (announced : ty.tag s = .ok tag) : w.tag = tag := by
  rw [h.tag_eq] at announced
  exact Except.ok.inj announced

/-- **What is laid out at a type is truthful.** -/
theorem Scope.Lays.isTruthful (h : s.Lays ty w) : w.IsTruthful := by
  induction h with
  | primitive _ tag => exact Wire.isTruthful_of_primitive tag
  | list _ announced each ih =>
    exact Wire.forall_hasPart.mpr ⟨fun w hw => (each w hw).tag_eq_announced announced, ih⟩
  | set _ announced each ih =>
    exact Wire.forall_hasPart.mpr ⟨fun w hw => (each w hw).tag_eq_announced announced, ih⟩
  | map _ announcedKey announcedValue keys values ihk ihv =>
    refine Wire.forall_hasPart.mpr ⟨fun x hx => ?_, fun u hu => ?_⟩
    · exact ⟨(keys x hx).tag_eq_announced announcedKey,
        (values x hx).tag_eq_announced announcedValue⟩
    · rcases List.mem_append.mp hu with hu | hu
      · obtain ⟨x, hx, rfl⟩ := List.mem_map.mp hu
        exact ihk x hx
      · obtain ⟨x, hx, rfl⟩ := List.mem_map.mp hu
        exact ihv x hx
  | item n _ _ =>
    exact Wire.forall_hasPart.mpr ⟨trivial, fun u hu => absurd hu List.not_mem_nil⟩
  | struct _ _ order _ _ ih =>
    refine Wire.forall_hasPart.mpr ⟨trivial, fun u hu => ?_⟩
    obtain ⟨x, hx, rfl⟩ := List.mem_map.mp hu
    -- the ids are declared ones, so each field is laid out at the type of one of them
    obtain ⟨f, hf, hid⟩ := List.mem_map.mp (order.subset (List.mem_map_of_mem hx))
    exact ih f hf x.2 (hid ▸ hx)

/-! ## What is sent -/

theorem Value.tag_of_primitiveToWire {p : Primitive} (h : v.primitiveToWire p = .ok w) :
    w.tag = p.tag := by
  cases p <;> cases v <;> cases h <;> rfl

/-- **What is sent at a type is laid out at it**, in a scope that tells the fields of
its structs apart. -/
theorem Value.lays_of_toWire (h : s.TellsApart) (hw : v.toWire s ty = .ok w) :
    s.Lays ty w := by
  induction v using Value.childInduction generalizing ty w with
  | step v ih =>
    obtain ⟨shape, hshape, hlowers⟩ := toWire_eq_ok.mp hw
    cases hlowers with
    | primitive sent => exact .primitive hshape (tag_of_primitiveToWire sent)
    | list announced each =>
      refine .list hshape announced fun w hw => ?_
      obtain ⟨v, hv, hvw⟩ := exists_left_of_forall₂ each hw
      exact ih v hv hvw
    | set announced each =>
      refine .set hshape announced fun w hw => ?_
      obtain ⟨v, hv, hvw⟩ := exists_left_of_forall₂ each hw
      exact ih v hv hvw
    | map keys values each =>
      refine .map hshape keys values (fun w hw => ?_) fun w hw => ?_
      · obtain ⟨x, hx, hk, -⟩ := exists_left_of_forall₂ each hw
        exact ih x.1 (key_mem_children hx) hk
      · obtain ⟨x, hx, -, hv⟩ := exists_left_of_forall₂ each hw
        exact ih x.2 (value_mem_children hx) hv
    | item body member => exact .item _ hshape body
    | @struct id e kind declared fields sent body known single each =>
      have htold := h id e kind declared (s.entity?_of_shape hshape) body
      have order := sublist_reduceOption (each.imp fun f o => id_of_send)
      have distinct := order.nodup htold.ids
      refine .struct hshape body order distinct fun f hf w hw => ?_
      -- what is under the id of a field is what was set under its name
      have hset := lookup_sent htold.ids each hf
      rw [(lookup_eq_some_iff_mem distinct).mpr hw] at hset
      generalize hgiven : fields.lookup f.name = o at hset
      cases hset with | some hvw =>
      exact ih _ (List.mem_map_of_mem (mem_of_lookup_eq_some hgiven)) hvw

/-! ## Protocols -/

/-- **A protocol of any kind**: what is written for a wire value, and what is read from a
payload that is to hold one with a given tag. -/
structure Codec where
  /-- The payload of a wire value. -/
  write : Wire → Except Protocol.Refusal (List UInt8)
  /-- The wire value in a payload, which is to have a given tag. -/
  read : Wire.Tag → List UInt8 → Except Protocol.Refusal Wire

namespace Codec

/-- **Reading undoes writing** for a wire value. -/
def Undoes (p : Codec) (w : Wire) : Prop :=
  ∀ bytes, p.write w = .ok bytes → p.read w.tag bytes = .ok w

/-- The payload of a value of a type. -/
def encodeAs (p : Codec) (s : Scope) (ty : Ty) (v : Value) :
    Except ValueError (List UInt8) := do
  (p.write (← v.toWire s ty)).mapError .payload

/-- The value of a type in a payload. -/
def decode (p : Codec) (s : Scope) (ty : Ty) (bytes : List UInt8) :
    Except ValueError Value := do
  let w ← (p.read (← ty.tag s) bytes).mapError .payload
  w.toValue s ty

/-- **A payload is read back** in any protocol that reads what it writes, and the value
in it is the one that was sent, completed. -/
theorem decode_of_encodeAs (p : Codec) (h : s.TellsApart) (hw : v.toWire s ty = .ok w)
    (hundo : p.Undoes w) {bytes : List UInt8} (hbytes : p.encodeAs s ty v = .ok bytes) :
    p.decode s ty bytes = .ok (v.complete s ty) := by
  have hwrite : p.write w = .ok bytes := by
    unfold encodeAs at hbytes
    rw [hw] at hbytes
    change (p.write w).mapError ValueError.payload = .ok bytes at hbytes
    cases hwrite : p.write w with
    | ok written =>
      rw [hwrite] at hbytes
      exact congrArg _ (Except.ok.inj hbytes)
    | error refusal =>
      rw [hwrite] at hbytes
      cases hbytes
  unfold decode
  rw [(Value.lays_of_toWire h hw).tag_eq]
  change ((p.read w.tag bytes).mapError ValueError.payload >>= fun w => w.toValue s ty) = _
  rw [hundo bytes hwrite]
  exact Wire.toValue_of_toWire h hw

end Codec

/-- One of the protocols that a unit may have. -/
def Protocol.codec (p : Protocol) : Codec := ⟨fun w => .ok (p.encode w), p.decode⟩

namespace CompiledUnit

theorem encodeAs_eq_codec (u : CompiledUnit) (ty : Ty) (v : Value) :
    u.encodeAs ty v = u.protocol.codec.encodeAs u.scope ty v := by
  unfold encodeAs Codec.encodeAs
  cases v.toWire u.scope ty <;> rfl

theorem decode_eq_codec (u : CompiledUnit) (ty : Ty) (bytes : List UInt8) :
    u.decode ty bytes = u.protocol.codec.decode u.scope ty bytes := by
  unfold decode Codec.decode Protocol.codec
  cases ty.tag u.scope with
  | error e => rfl
  | ok tag =>
    simp only [bind, Except.bind]
    cases u.protocol.decode tag bytes <;> rfl

end CompiledUnit

/-! ## Compiled documents -/

namespace Document

variable {d : Document} {name : String} {c : Compiled}

/-- **What is sent is what it says it is.** In the scope of a compiled document, a value
that is sent at a type goes as a wire value with the tag of the type, whose containers
announce the tags of their items, all the way down, and whose structs have fields that
are declared, in the order of their declaration and each once. So no payload is refused
for its tag: in any protocol that reads what it writes, and in that of a unit if it
does, the value is received again, completed. -/
theorem lays_of_compile (hok : d.compile name = .ok c) {ty : Ty} {v : Value} {w : Wire}
    (hw : v.toWire c.scope ty = .ok w) :
    ty.tag c.scope = .ok w.tag ∧ w.IsTruthful ∧ c.scope.Lays ty w
      ∧ (∀ p : Codec, p.Undoes w → ∀ bytes, p.encodeAs c.scope ty v = .ok bytes →
        p.decode c.scope ty bytes = .ok (v.complete c.scope ty))
      ∧ ∀ u : CompiledUnit, u.toCompiled = c → u.protocol.codec.Undoes w →
        ∀ bytes, u.encodeAs ty v = .ok bytes →
          u.decode ty bytes = .ok (v.complete c.scope ty) := by
  have htold := tellsApart_of_compile hok
  have hlays := Value.lays_of_toWire htold hw
  refine ⟨hlays.tag_eq, hlays.isTruthful, hlays,
    fun p hundo bytes => p.decode_of_encodeAs htold hw hundo, ?_⟩
  rintro u rfl hundo bytes hbytes
  rw [u.encodeAs_eq_codec] at hbytes
  rw [u.decode_eq_codec]
  exact u.protocol.codec.decode_of_encodeAs htold hw hundo hbytes

/-- The lowest of the hearts on the wire. -/
def deckSent : Wire := .list .struct [.struct [(1, .i32 1), (2, .i32 1)]]

/-- A deck is sent as a list that announces structs, and a unit that packs its payloads
receives it again. -/
theorem lays_cards :
    cards.compile "cards" = .ok ⟨cardsScope, []⟩
      ∧ (deck [("rank", .i32 1), ("suit", .enum "Suit" 1)]).toWire cardsScope deckType
        = .ok deckSent
      ∧ deckType.tag cardsScope = .ok .list ∧ deckSent.IsTruthful ∧ cardsScope.Lays deckType deckSent
      ∧ Protocol.msgpack.codec.Undoes deckSent
      ∧ ∀ u : CompiledUnit, u.toCompiled = ⟨cardsScope, []⟩ → u.protocol = .msgpack →
        ∃ bytes, u.encodeAs deckType (deck [("rank", .i32 1), ("suit", .enum "Suit" 1)])
            = .ok bytes
          ∧ u.decode deckType bytes
            = .ok (deck [("suit", .enum "Suit" 1), ("rank", .i32 1)]) := by
  have hw : (deck [("rank", .i32 1), ("suit", .enum "Suit" 1)]).toWire cardsScope deckType
      = .ok deckSent := rfl
  have hundo : Protocol.msgpack.codec.Undoes deckSent := by
    rintro bytes ⟨⟩
    rfl
  obtain ⟨htag, htruthful, hlays, -, hunit⟩ := lays_of_compile compile_cards hw
  refine ⟨compile_cards, hw, htag, htruthful, hlays, hundo, fun u hu hprotocol => ?_⟩
  have hbytes : u.encodeAs deckType (deck [("rank", .i32 1), ("suit", .enum "Suit" 1)])
      = .ok (u.protocol.encode deckSent) := by
    have hscope : u.scope = cardsScope := congrArg Compiled.scope hu
    exact u.encodeAs_of_toWire (hscope ▸ hw)
  exact ⟨_, hbytes, hunit u hu (hprotocol ▸ hundo) _ hbytes⟩

end Document

end Interlink
