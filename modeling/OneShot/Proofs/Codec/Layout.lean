/-
# OneShot.Proofs.Codec.Layout -- decoding does not depend on layout

What a tagged value decodes to is settled by what stands under `type` and what stands under
`payload` (`Tagged.meant`), wherever the two stand and whatever stands under other keys.

A payload behind its tag is decoded where it stands.  One in front of its tag is read first, and
what was read is decoded when the tag is known.  That the two come to the same is a property of
formats (`Format.Steady`), which every payload type has.  A summary is read field by field, and
no order of the fields is better than another (`Stats.field`).

The main statement is `decoding_ignores_layout`.  Of the array of tag and payload it holds unless
the name of a variant is spelled out as the only key of an object, with null behind it (`SpelledOut`):
under its key it may be, in the array it may not (`array_spells_variant`).
-/
import OneShot.Proofs.Json.Drafts
import OneShot.Proofs.Codec.RoundTrip

namespace OneShot

set_option autoImplicit false

open Json (Draft Items Members Origin Break under Relaid IsObject IsArray)

variable {α β γ ε : Type}

/-! ## Whether something is decoded, and to what -/

section

variable {e : Type}

@[simp] theorem toOption_ok (a : α) : (Except.ok a : Except e α).toOption = some a := rfl

@[simp] theorem toOption_error (b : e) : (Except.error b : Except e α).toOption = none := rfl

@[simp] theorem toOption_bind (x : Except e α) (f : α → Except e β) :
    (x >>= f).toOption = x.toOption.bind fun a => (f a).toOption := by
  cases x <;> rfl

@[simp] theorem toOption_map (x : Except e α) (f : α → β) :
    (x.map f).toOption = x.toOption.map f := by
  cases x <;> rfl

@[simp] theorem toOption_reading (x : Except Break α) :
    (Fault.reading x).toOption = x.toOption := by
  cases x <;> rfl

theorem ok_of_bind {x : Except e α} {f : α → Except e β} {b : β} (ok : (x >>= f) = .ok b) :
    ∃ a, x = .ok a ∧ f a = .ok b := by
  cases x with
  | ok a => exact ⟨a, rfl, ok⟩
  | error fault => cases ok

theorem ok_of_reading {x : Except Break α} {a : α} (read : Fault.reading x = .ok a) :
    x = .ok a := by
  cases x with
  | ok b => exact congrArg Except.ok (Except.ok.inj read)
  | error b => cases read

theorem toOption_bind_none {x : Except e α} {f : α → Option β} (none : ∀ a, x = .ok a → f a = none) :
    x.toOption.bind f = Option.none := by
  cases x with
  | error b => rfl
  | ok a => exact none a rfl

end

/-! ## Formats that may wait -/

/-- It makes no difference whether a decoder is applied to a draft, or to what was read there. -/
def Steady (decode : Origin → Draft → Except Fault α) : Prop :=
  ∀ (o : Origin) (d : Draft), d.Proper →
    (decode o d).toOption =
      (d.read o).toOption.bind fun v => (decode .tree (Draft.ofJson v)).toOption

theorem Steady.map {decode : Origin → Draft → Except Fault α} (steady : Steady decode)
    (make : α → β) : Steady fun o d => (decode o d).map make := by
  intro o d proper
  simp only [toOption_map, steady o d proper, Option.map_bind]
  rfl

/-- A decoder that looks at leaves alone. -/
theorem Steady.of_leaf {decode : Origin → Draft → Except Fault α} (make : Json → Option α)
    (leaf : ∀ o d, d.Proper → (decode o d).toOption = d.leaf?.bind make) : Steady decode := by
  intro o d proper
  rw [leaf o d proper]
  cases read : d.read o with
  | ok v =>
      show d.leaf?.bind make = (decode .tree (Draft.ofJson v)).toOption
      rw [leaf .tree _ (Json.proper_ofJson v), Json.leaf_of_read proper read]
  | error b =>
      have none : d.leaf? = none := by
        cases found : d.leaf? with
        | none => rfl
        | some v => cases read.symm.trans (Json.read_of_leaf found o)
      rw [none]
      rfl

/-- A leaf is a string, or a scalar of the draft. -/
theorem scalar_of_leaf {d : Draft} {v : Json} (leaf : d.leaf? = some v)
    (other : ∀ s, v ≠ .string s) : ∃ loose, d = .scalar { strict := .ok v, loose } := by
  match d with
  | .missing _ | .array _ | .object _ => cases leaf
  | .scalar { strict := .error _, loose := _ } => cases leaf
  | .scalar { strict := .ok w, loose } =>
      obtain rfl : w = v := Option.some.inj leaf
      exact ⟨loose, rfl⟩
  | .string { strict := .error _, loose := _ } => cases leaf
  | .string { strict := .ok s, loose := _ } => exact absurd (Option.some.inj leaf).symm (other s)

theorem leaf_null {d : Draft} :
    d.leaf? = some .null ↔ ∃ loose, d = .scalar { strict := .ok .null, loose } := by
  constructor
  · exact fun leaf => scalar_of_leaf leaf nofun
  · rintro ⟨loose, rfl⟩
    rfl

namespace Format

/-- The integer between two bounds that a leaf is. -/
def intOf (low high : Int) : Json → Option Int
  | .int n => if low ≤ n ∧ n ≤ high then some n else none
  | _ => none

def boolOf : Json → Option Bool
  | .bool b => some b
  | _ => none

def stringOf : Json → Option String
  | .string s => some s
  | _ => none

theorem decodeInt_leaf (expected : String) (low high : Int) (d : Draft) :
    (decodeInt expected low high d).toOption = d.leaf?.bind (intOf low high) := by
  rw [decodeInt.eq_def]
  split
  · split
    · rename_i within
      exact (if_pos within).symm
    · rename_i outside
      exact (if_neg outside).symm
  · rename_i other
    refine (Option.bind_eq_none_iff.2 fun v leaf => ?_).symm
    cases v with
    | int n =>
        obtain ⟨loose, rfl⟩ := scalar_of_leaf leaf nofun
        exact absurd rfl (other n loose)
    | _ => rfl

theorem uint8_steady : Steady uint8.decode :=
  .map (.of_leaf _ fun _ d _ => decodeInt_leaf "u8" 0 255 d) _

theorem int64_steady : Steady int64.decode :=
  .map (.of_leaf _ fun _ d _ => decodeInt_leaf "i64" _ _ d) _

theorem bool_steady : Steady bool.decode := by
  refine .of_leaf boolOf fun o d _ => ?_
  simp only [bool]
  split
  · rfl
  · rename_i other
    refine (Option.bind_eq_none_iff.2 fun v leaf => ?_).symm
    cases v with
    | bool b =>
        obtain ⟨loose, rfl⟩ := scalar_of_leaf leaf nofun
        exact absurd rfl (other b loose)
    | _ => rfl

theorem string_steady : Steady string.decode := by
  refine .of_leaf stringOf fun o d proper => ?_
  match d with
  | .missing _ | .array _ | .object _ => rfl
  | .scalar { strict := .error _, loose := _ } => rfl
  | .scalar { strict := .ok v, loose := _ } =>
      simp only [Draft.Proper] at proper
      have scalar := proper v rfl
      cases v with
      | string _ => cases scalar
      | _ => rfl
  | .string { strict := .error _, loose := _ } => rfl
  | .string { strict := .ok _, loose := _ } => rfl

/-- Null is told from a value in the draft as in what is read there. -/
theorem optional_steady {f : Format α} (steady : Steady f.decode) : Steady (optional f).decode := by
  have either : ∀ o d, ((optional f).decode o d).toOption =
      if d.leaf? = some .null then some none else (f.decode o d).toOption.map some := by
    intro o d
    simp only [optional]
    split
    · exact (if_pos rfl).symm
    · rename_i other
      rw [if_neg, toOption_map]
      intro null
      obtain ⟨loose, rfl⟩ := leaf_null.1 null
      exact other loose rfl
  intro o d proper
  rw [either, steady o d proper]
  cases read : d.read o with
  | ok v =>
      show _ = ((optional f).decode .tree (Draft.ofJson v)).toOption
      rw [either, Json.leaf_of_read proper read]
      rfl
  | error b =>
      have other : d.leaf? ≠ some .null := by
        intro null
        cases read.symm.trans (Json.read_of_leaf null o)
      rw [if_neg other]
      rfl

/-- The items of a list wait one by one. -/
theorem items_steady {f : Format α} (steady : Steady f.decode) (o : Origin) :
    ∀ items : Items, items.Proper → (decodeItems f o items).toOption =
      (items.read o).toOption.bind fun vs => (decodeItems f .tree (Items.ofList vs)).toOption
  | .closed, _ => by
      simp [decodeItems, Items.read, Items.ofList]
  | .broken _, _ => by
      simp [decodeItems, Items.read]
  | .item d rest, proper => by
      have others := items_steady steady o rest proper.2
      simp only [decodeItems, Items.read, toOption_bind, steady o d proper.1, others]
      cases d.read o with
      | error b => rfl
      | ok v =>
          cases rest.read o with
          | error b => exact Option.bind_eq_none_iff.2 fun _ _ => rfl
          | ok vs => simp [Items.ofList, decodeItems, pure, Except.pure]

/-- A leaf is no list. -/
theorem list_leaf {f : Format α} {o : Origin} {d : Draft} {v : Json} (leaf : d.leaf? = some v) :
    ((list f).decode o d).toOption = none := by
  cases d with
  | scalar _ | string _ => rfl
  | missing _ | array _ | object _ => cases leaf

theorem list_steady {f : Format α} (steady : Steady f.decode) : Steady (list f).decode := by
  intro o d proper
  cases d with
  | array items =>
      simp only [list, Draft.read, toOption_bind, toOption_reading]
      cases o.enter with
      | error b => rfl
      | ok inside =>
          simp only [toOption_ok, Option.bind_some, items_steady steady inside items proper]
          cases items.read inside with
          | error b => rfl
          | ok vs =>
              simp only [toOption_ok, Option.bind_some, pure, Except.pure, Draft.ofJson]
              rfl
  | missing b => rfl
  | scalar found =>
      refine (toOption_bind_none fun v read => list_leaf (v := v) ?_).symm
      rw [Json.leaf_of_read proper read]
      exact congrArg Except.toOption read
  | string found =>
      refine (toOption_bind_none fun v read => list_leaf (v := v) ?_).symm
      rw [Json.leaf_of_read proper read, Draft.leaf?, ← toOption_map]
      exact congrArg Except.toOption read
  | object members =>
      refine (toOption_bind_none fun v read => ?_).symm
      simp only [Draft.read, bind, Except.bind] at read
      split at read
      · cases read
      · split at read
        · cases read
        · cases read
          simp only [Json.ofMembers, Draft.ofJson]
          rfl

theorem json_steady : Steady json.decode := by
  intro o d proper
  show (Fault.reading (d.read o)).toOption = _
  cases read : d.read o with
  | error b => rfl
  | ok v =>
      show some v = (Fault.reading ((Draft.ofJson v).read .tree)).toOption
      rw [Json.read_again proper read]
      rfl

end Format

/-! ## Variants -/

namespace Body

/-- A payload may be read first and decoded afterwards. -/
def Waits (b : Body α) : Prop := Steady fun o d => b.decode o d

/-- Null is what a variant holds that holds nothing. -/
def nothing (a : α) : Json → Option α
  | .null => some a
  | _ => none

theorem bare_waits (a : α) (what : String) : (bare a what).Waits := by
  refine .of_leaf (nothing a) fun o d _ => ?_
  rw [decode.eq_def]
  simp only
  split
  · rfl
  · rename_i other
    refine (Option.bind_eq_none_iff.2 fun v leaf => ?_).symm
    cases v with
    | null =>
        obtain ⟨loose, rfl⟩ := leaf_null.1 leaf
        exact absurd rfl (other loose)
    | _ => rfl

theorem wrapping_waits {f : Format β} (steady : Steady f.decode) (make : β → α) :
    (wrapping f make).Waits :=
  steady.map make

end Body

/-- An object whose only key is one of these names, with null behind it. -/
def SpelledOut (names : List String) (d : Draft) : Prop :=
  ∃ name ∈ names, ∃ key colon value, d = .object (.member key colon value .closed) ∧
    key.strict = .ok name ∧ value.leaf? = some .null

theorem spelledOut_ofJson {names : List String} {v : Json} (spelled : SpelledOut names (Draft.ofJson v)) :
    ∃ name ∈ names, v = .object [(name, .null)] := by
  obtain ⟨name, known, key, colon, value, object, named, null⟩ := spelled
  refine ⟨name, known, ?_⟩
  cases v with
  | object members =>
      match members with
      | [] => simp [Draft.ofJson, Members.ofList] at object
      | (k, w) :: rest =>
          simp only [Draft.ofJson, Members.ofList, Members.ofMember, Draft.object.injEq,
            Members.member.injEq] at object
          obtain ⟨rfl, -, rfl, closed⟩ := object
          obtain rfl : k = name := Except.ok.inj named
          obtain rfl : rest = [] := by
            cases rest with
            | nil => rfl
            | cons member rest => cases member; cases closed
          cases w with
          | null => rfl
          | _ => simp [Draft.ofJson, Draft.leaf?, Json.Found.ok, Except.toOption] at null
  | array | string | null | bool | int | float => simp [Draft.ofJson] at object

namespace Variants

theorem mem_of_named {vs : Variants β} {name : String} {b : β} (named : vs.named name = .ok b) :
    (name, b) ∈ vs := by
  rw [Variants.named] at named
  split at named
  · rename_i v found
    have same : v.1 = name := by simpa using List.find?_some found
    cases named
    exact same ▸ List.mem_of_find?_eq_some found
  · cases named

theorem leaf_of_decodeNothing {d : Draft} (nothing : decodeNothing d = .ok ()) :
    d.leaf? = some .null := by
  rw [decodeNothing.eq_def] at nothing
  split at nothing
  · rfl
  · cases nothing

/-- An object that a variant is decoded from has its name for the only key, and null behind it. -/
theorem members_of_decode {vs : Variants β} {o : Origin} {members : Members} {b : β}
    (decoded : vs.decode o (.object members) = .ok b) :
    ∃ name key colon value, members = .member key colon value .closed ∧
      key.strict = .ok name ∧ (name, b) ∈ vs ∧ value.leaf? = some .null := by
  cases o with
  | tree =>
      simp only [Variants.decode] at decoded
      rw [ofOnlyMember.eq_def] at decoded
      split at decoded
      · obtain ⟨v, named, decoded⟩ := ok_of_bind decoded
        obtain ⟨⟨⟩, nothing, same⟩ := ok_of_bind decoded
        cases same
        exact ⟨_, _, _, _, rfl, rfl, mem_of_named named, leaf_of_decodeNothing nothing⟩
      · cases decoded
  | text left =>
      obtain ⟨inside, -, decoded⟩ := ok_of_bind decoded
      cases members with
      | closed | broken _ | dangling _ => cases decoded
      | member key colon value rest =>
          obtain ⟨name, read, behind⟩ := ok_of_bind decoded
          obtain ⟨v, named, behind⟩ := ok_of_bind behind
          obtain ⟨⟨⟩, nothing, ended⟩ := ok_of_bind behind
          cases colon with
          | some b => cases nothing
          | none =>
              cases rest with
              | closed =>
                  cases ended
                  exact ⟨name, key, none, value, rfl, ok_of_reading read, mem_of_named named,
                    leaf_of_decodeNothing nothing⟩
              | _ => cases ended

/-- A variant that a draft names is one of the type's. -/
theorem mem_of_decode {vs : Variants β} {o : Origin} {d : Draft} {b : β}
    (decoded : vs.decode o d = .ok b) : ∃ v ∈ vs, v.2 = b := by
  cases d with
  | string found =>
      obtain ⟨name, -, named⟩ := ok_of_bind decoded
      exact ⟨_, mem_of_named named, rfl⟩
  | object members =>
      obtain ⟨name, -, -, -, -, -, member, -⟩ := members_of_decode decoded
      exact ⟨_, member, rfl⟩
  | missing b => cases decoded
  | scalar found => cases o <;> cases decoded
  | array items => cases o <;> cases decoded

/-- Unless it spells out a name, a draft names a variant in an array as it does under a key. -/
theorem ofName_toOption {vs : Variants β} {o : Origin} {d : Draft}
    (plain : ¬ SpelledOut (vs.map Prod.fst) d) :
    (vs.ofName d).toOption = (vs.decode o d).toOption := by
  cases d with
  | string found => rfl
  | missing b => rfl
  | scalar found => cases o <;> rfl
  | array items => cases o <;> rfl
  | object members =>
      cases decoded : vs.decode o (.object members) with
      | error fault => rfl
      | ok b =>
          obtain ⟨name, key, colon, value, rfl, named, member, null⟩ := members_of_decode decoded
          exact absurd ⟨name, List.mem_map_of_mem member, key, colon, value, rfl, named, null⟩ plain

end Variants

/-! ## Tagged values -/

namespace Tagged

/-- What a tag and a payload mean, or a tag alone. -/
def meant (vs : Variants (Body α)) (o : Origin) (tag : Draft) (payload : Option Draft) : Option α :=
  (vs.decode o tag).toOption.bind fun body =>
    match payload with
    | none => body.withoutPayload.toOption
    | some d => (body.decode o d).toOption

theorem Key.ofName?_eq {name : String} {key : Key} :
    Key.ofName? name = some key ↔ name = key.name := by
  rw [Key.ofName?]
  cases key with
  | tag => by_cases tag : name = Key.tag.name <;> simp [tag]
  | payload =>
      have different : Key.payload.name ≠ Key.tag.name := by decide
      by_cases payload : name = Key.payload.name
      · simp [payload, different]
      · by_cases tag : name = Key.tag.name <;> simp [tag, payload, different.symm]

/-- The first member under one of the two keys, if there is one. -/
theorem next?_ofDrafts {ms : List (String × Draft)} (whole : ∀ m ∈ ms, m.2.skip = none) :
    (next? (.ofDrafts ms) = .ok none ∧ ∀ k : Key, under k.name ms = []) ∨
      ∃ key d rest, next? (.ofDrafts ms) = .ok (some ⟨key, none, d, .ofDrafts rest⟩) ∧
        (key.name, d) ∈ ms ∧ (∀ m ∈ rest, m ∈ ms) ∧
        ∀ k : Key, under k.name ms = (if key = k then [d] else []) ++ under k.name rest := by
  induction ms with
  | nil => exact .inl ⟨rfl, fun _ => rfl⟩
  | cons m ms ih =>
      obtain ⟨name, d⟩ := m
      obtain ⟨first, others⟩ := List.forall_mem_cons.1 whole
      cases known : Key.ofName? name with
      | some key =>
          obtain rfl := Key.ofName?_eq.1 known
          refine .inr ⟨key, d, ms, ?_, List.mem_cons_self, fun m => List.mem_cons_of_mem _, ?_⟩
          · simp only [Members.ofDrafts, next?, Json.Found.ok, Fault.reading, known, bind,
              Except.bind, pure, Except.pure]
          · intro k
            rw [Json.under_cons]
            by_cases same : key = k
            · simp [same]
            · have other : key.name ≠ k.name := by
                intro named
                cases key <;> cases k <;> simp_all [Key.name]
              simp [same, other]
      | none =>
          have passed : next? (.ofDrafts ((name, d) :: ms)) = next? (.ofDrafts ms) := by
            simp only [Members.ofDrafts, next?, Json.Found.ok, Fault.reading, known, bind,
              Except.bind]
            rw [first]
            rfl
          have absent : ∀ k : Key, under k.name ((name, d) :: ms) = under k.name ms := by
            intro k
            rw [Json.under_cons, if_neg, List.nil_append]
            intro named
            cases known.symm.trans (Key.ofName?_eq.2 named)
          rw [passed]
          rcases ih others with ⟨last, empty⟩ | ⟨key, d', rest, hit, member, within, divided⟩
          · exact .inl ⟨last, fun k => (absent k).trans (empty k)⟩
          · exact .inr ⟨key, d', rest, hit, List.mem_cons_of_mem _ member,
              fun m member => List.mem_cons_of_mem _ (within m member),
              fun k => (absent k).trans (divided k)⟩

variable {ms : List (String × Draft)}

/-- Behind the last of the two keys. -/
theorem next?_none (whole : ∀ m ∈ ms, m.2.skip = none) (absent : ∀ k : Key, under k.name ms = []) :
    next? (.ofDrafts ms) = .ok none := by
  rcases next?_ofDrafts whole with ⟨last, -⟩ | ⟨key, d, rest, -, -, -, divided⟩
  · exact last
  · have here := divided key
    rw [absent key, if_pos rfl] at here
    cases here

theorem settled_ofDrafts (whole : ∀ m ∈ ms, m.2.skip = none)
    (absent : ∀ k : Key, under k.name ms = []) (a : α) : settled a (.ofDrafts ms) = .ok a := by
  rw [settled, next?_none whole absent]
  rfl

/-- Behind the one key there is the other, or nothing that matters. -/
theorem next?_behind (whole : ∀ m ∈ ms, m.2.skip = none) (one other : Key) (different : one ≠ other)
    {left : Option Draft} (absent : under one.name ms = [])
    (present : under other.name ms = left.toList) :
    ∃ rest : List (String × Draft),
      next? (.ofDrafts ms) = .ok (left.map fun d => ⟨other, none, d, .ofDrafts rest⟩) ∧
        ∀ {γ : Type} (a : γ), settled a (.ofDrafts rest) = .ok a := by
  -- there are no keys but these two
  have either : ∀ k, k = one ∨ k = other := by
    cases one <;> cases other <;> simp at different <;> intro k <;> cases k <;> simp
  rcases next?_ofDrafts whole with ⟨last, empty⟩ | ⟨key, d, rest, hit, -, within, divided⟩
  · obtain rfl : left = none := by
      rw [empty other] at present
      exact Option.toList_eq_nil_iff.1 present.symm
    exact ⟨[], last, fun a => settled_ofDrafts (by simp) (fun _ => rfl) a⟩
  · obtain rfl : key = other := by
      rcases either key with rfl | same
      · have here := (divided key).symm.trans absent
        rw [if_pos rfl] at here
        cases here
      · exact same
    have here := (divided key).symm.trans present
    rw [if_pos rfl, List.singleton_append] at here
    cases left with
    | none => cases here
    | some d' =>
        obtain ⟨rfl, none_⟩ := List.cons.inj here
        refine ⟨rest, hit, fun a => settled_ofDrafts (fun m member => whole m (within m member)) ?_ a⟩
        intro k
        rcases either k with rfl | rfl
        · have there := (divided k).symm.trans absent
          rwa [if_neg fun same => different same.symm, List.nil_append] at there
        · exact none_

/-- **What a tagged value means** is settled by what stands under the two keys. -/
theorem decodeMembers_meant {vs : Variants (Body α)} (waits : ∀ v ∈ vs, v.2.Waits) {o : Origin}
    (whole : ∀ m ∈ ms, m.2.skip = none) (proper : ∀ m ∈ ms, m.2.Proper) {t : Draft}
    {p : Option Draft} (tag : under Key.tag.name ms = [t])
    (payload : under Key.payload.name ms = p.toList) :
    (decodeMembers vs o (.ofDrafts ms)).toOption = meant vs o t p := by
  rcases next?_ofDrafts whole with ⟨-, empty⟩ | ⟨key, d, rest, hit, member, within, divided⟩
  · cases tag.symm.trans (empty .tag)
  have wholeRest : ∀ m ∈ rest, m.2.skip = none := fun m member => whole m (within m member)
  cases key with
  | tag =>
      obtain ⟨rfl, tags⟩ : d = t ∧ under Key.tag.name rest = [] := by
        simpa using (divided .tag).symm.trans tag
      have payloads : under Key.payload.name rest = p.toList := by
        simpa using (divided .payload).symm.trans payload
      obtain ⟨rest', hit', settles⟩ := next?_behind wholeRest .tag .payload (by decide) tags payloads
      simp only [decodeMembers, hit, bind, Except.bind, Fault.guard, meant]
      cases vs.decode o d with
      | error fault => rfl
      | ok body =>
          cases p with
          | none => simp only [hit', Option.map_none, toOption_ok, Option.bind_some]
          | some p =>
              simp only [hit', Option.map_some, toOption_ok, Option.bind_some]
              cases body.decode o p with
              | error fault => rfl
              | ok a => simp only [settles]
  | payload =>
      -- the payload is read, and decoded when the tag is known
      obtain ⟨rfl, payloads⟩ : p = some d ∧ under Key.payload.name rest = [] := by
        have held : d :: under Key.payload.name rest = p.toList := by
          simpa using (divided .payload).symm.trans payload
        cases p with
        | none => cases held
        | some p =>
            obtain ⟨rfl, payloads⟩ := List.cons.inj held
            exact ⟨rfl, payloads⟩
      have tags : under Key.tag.name rest = (some t).toList := by
        simpa using (divided .tag).symm.trans tag
      obtain ⟨rest', hit', settles⟩ := next?_behind wholeRest .payload .tag (by decide) payloads tags
      have held : d.Proper := proper _ member
      simp only [decodeMembers, hit, bind, Except.bind, Fault.guard, meant]
      cases named : vs.decode o t with
      | error fault =>
          cases d.read o with
          | error b => rfl
          | ok v => simp only [Fault.reading, hit', Option.map_some, named, toOption_error,
              Option.bind_none]
      | ok body =>
          obtain ⟨v, member, rfl⟩ := Variants.mem_of_decode named
          rw [toOption_ok, Option.bind_some, waits v member o d held]
          cases d.read o with
          | error b => rfl
          | ok w =>
              simp only [Fault.reading, hit', Option.map_some, named, toOption_ok, Option.bind_some]
              cases v.2.decode .tree (Draft.ofJson w) with
              | error fault => rfl
              | ok a => simp only [settles]

/-- An array of two has its tag first. -/
theorem decodeItems_meant {vs : Variants (Body α)} {o : Origin} {what : String} {t p : Draft}
    (plain : ¬ SpelledOut (vs.map Prod.fst) t) :
    (decodeItems what vs o (.ofDrafts [t, p])).toOption = meant vs o t (some p) := by
  have named : (vs.ofName t).toOption = (vs.decode o t).toOption := Variants.ofName_toOption plain
  simp only [decodeItems, Items.ofDrafts, item, toOption_bind, toOption_ok, Option.bind_some,
    named, finished, meant, Option.bind_fun_some]

/-- The keys of a tagged value. -/
def keys : List String := [Key.tag.name, Key.payload.name]

/-- One tag, and at most one payload. -/
structure Fields (members : List (String × β)) : Prop where
  tag : (members.map Prod.fst).count Key.tag.name = 1
  payload : (members.map Prod.fst).count Key.payload.name ≤ 1

theorem Fields.under {members : List (String × β)} (fields : Fields members) :
    ∃ (t : β) (p : Option β), Json.under Key.tag.name members = [t] ∧
      Json.under Key.payload.name members = p.toList := by
  obtain ⟨tag, payload⟩ := fields
  rw [← Json.length_under] at tag payload
  obtain ⟨t, tag⟩ := List.length_eq_one_iff.1 tag
  match found : Json.under Key.payload.name members, payload with
  | [], _ => exact ⟨t, none, tag, rfl⟩
  | [p], _ => exact ⟨t, some p, tag, rfl⟩

theorem tag_mem : Key.tag.name ∈ keys := List.mem_cons_self

theorem payload_mem : Key.payload.name ∈ keys := List.mem_cons_of_mem _ List.mem_cons_self

theorem Fields.of_relaid {members members' : List (String × β)} (fields : Fields members)
    (relaid : Relaid keys members members') : Fields members' where
  tag := by
    rw [← Json.length_under, relaid.under_eq tag_mem (Nat.le_of_eq fields.tag), Json.length_under]
    exact fields.tag
  payload := by
    rw [← Json.length_under, relaid.under_eq payload_mem fields.payload, Json.length_under]
    exact fields.payload

/-- Every object with one tag and at most one payload decodes alike under all layouts, be it a
text or a value, and like the array of tag and payload unless the tag spells out one of the
names of the variants. -/
structure IgnoresLayout (names : List String) (f : Format α) : Prop where
  texts : ∀ {text text' : String} {ms ms' : List (String × Draft)},
    IsObject text ms → IsObject text' ms' → Fields ms → Relaid keys ms ms' →
      (f.ofText text').toOption = (f.ofText text).toOption
  values : ∀ {ms ms' : List (String × Json)}, Fields ms → Relaid keys ms ms' →
    (f.ofJson (.object ms')).toOption = (f.ofJson (.object ms)).toOption
  arrayTexts : ∀ {text text' : String} {ms : List (String × Draft)} {t p : Draft},
    IsObject text ms → Fields ms → (Key.tag.name, t) ∈ ms → (Key.payload.name, p) ∈ ms →
      ¬ SpelledOut names t → IsArray text' [t, p] →
        (f.ofText text').toOption = (f.ofText text).toOption
  arrayValues : ∀ {ms : List (String × Json)} {t p : Json},
    Fields ms → (Key.tag.name, t) ∈ ms → (Key.payload.name, p) ∈ ms →
      (∀ name ∈ names, t.normal ≠ .object [(name, .null)]) →
        (f.ofJson (.array [t, p])).toOption = (f.ofJson (.object ms)).toOption

end Tagged

namespace Format

/-- A text that holds nothing else is decoded as its draft. -/
theorem ofText_toOption {f : Format α} {text : String} {d : Draft}
    (document : Json.Document.ofString text = { value := d, trailing := false }) :
    (f.ofText text).toOption = (f.decode .document d).toOption := by
  rw [ofText, document]
  cases f.decode .document d <;> rfl

end Format

namespace Tagged

variable {f : Format α} {what : String} {vs : Variants (Body α)} {t : Draft} {p : Option Draft}

/-- Where the members of a text are read. -/
def inside : Origin := .text (Origin.depth - 1)

theorem ofText_object (decoder : f.decode = decode what vs) (waits : ∀ v ∈ vs, v.2.Waits)
    {text : String} {ms : List (String × Draft)} (object : IsObject text ms)
    (tag : under Key.tag.name ms = [t]) (payload : under Key.payload.name ms = p.toList) :
    (f.ofText text).toOption = meant vs inside t p := by
  rw [Format.ofText_toOption object.document, decoder,
    ← decodeMembers_meant waits object.whole object.proper tag payload]
  rfl

theorem ofText_array (decoder : f.decode = decode what vs) {text : String} {payload : Draft}
    (plain : ¬ SpelledOut (vs.map Prod.fst) t) (array : IsArray text [t, payload]) :
    (f.ofText text).toOption = meant vs inside t (some payload) := by
  rw [Format.ofText_toOption array.document, decoder, ← decodeItems_meant plain]
  rfl

theorem ofJson_object (decoder : f.decode = decode what vs) (waits : ∀ v ∈ vs, v.2.Waits)
    {ms : List (String × Json)} (fields : Fields ms) {t : Json} {p : Option Json}
    (tag : under Key.tag.name ms = [t]) (payload : under Key.payload.name ms = p.toList) :
    (f.ofJson (.object ms)).toOption =
      meant vs .tree (Draft.ofJson t.normal) (p.map fun v => Draft.ofJson v.normal) := by
  obtain ⟨ds, draft, whole, proper, same⟩ := Json.draft_object ms
  have tag' : under Key.tag.name ds = [Draft.ofJson t.normal] := by
    rw [same _ (Nat.le_of_eq fields.tag), tag, List.map_singleton]
  have payload' : under Key.payload.name ds = (p.map fun v => Draft.ofJson v.normal).toList := by
    rw [same _ fields.payload, payload]
    cases p <;> rfl
  rw [Format.ofJson, draft, decoder, ← decodeMembers_meant waits whole proper tag' payload']
  rfl

theorem ofJson_array (decoder : f.decode = decode what vs) {t p : Json}
    (plain : ∀ name ∈ vs.map Prod.fst, t.normal ≠ .object [(name, .null)]) :
    (f.ofJson (.array [t, p])).toOption =
      meant vs .tree (Draft.ofJson t.normal) (some (Draft.ofJson p.normal)) := by
  have plain' : ¬ SpelledOut (vs.map Prod.fst) (Draft.ofJson t.normal) := by
    intro spelled
    obtain ⟨name, known, object⟩ := spelledOut_ofJson spelled
    exact plain name known object
  rw [Format.ofJson, decoder, Json.normal, Json.normalItems_eq_map, Draft.ofJson,
    Json.items_ofList, ← decodeItems_meant plain']
  rfl

/-- **Layouts do not matter** where payloads may wait for their tag. -/
theorem ignoresLayout (decoder : f.decode = decode what vs) (waits : ∀ v ∈ vs, v.2.Waits) :
    IgnoresLayout (vs.map Prod.fst) f where
  texts object object' fields relaid := by
    obtain ⟨t, p, tag, payload⟩ := fields.under
    have tag' := (relaid.under_eq tag_mem (Nat.le_of_eq fields.tag)).trans tag
    have payload' := (relaid.under_eq payload_mem fields.payload).trans payload
    rw [ofText_object decoder waits object tag payload,
      ofText_object decoder waits object' tag' payload']
  values fields relaid := by
    obtain ⟨t, p, tag, payload⟩ := fields.under
    have tag' := (relaid.under_eq tag_mem (Nat.le_of_eq fields.tag)).trans tag
    have payload' := (relaid.under_eq payload_mem fields.payload).trans payload
    rw [ofJson_object decoder waits fields tag payload,
      ofJson_object decoder waits (fields.of_relaid relaid) tag' payload']
  arrayTexts := by
    intro text text' ms t p object fields tag payload plain array
    have tag := Json.under_of_mem (Nat.le_of_eq fields.tag) tag
    have payload : under Key.payload.name ms = (some p).toList :=
      Json.under_of_mem fields.payload payload
    rw [ofText_array decoder plain array, ofText_object decoder waits object tag payload]
  arrayValues := by
    intro ms t p fields tag payload plain
    have tag := Json.under_of_mem (Nat.le_of_eq fields.tag) tag
    have payload : under Key.payload.name ms = (some p).toList :=
      Json.under_of_mem fields.payload payload
    rw [ofJson_array decoder plain, ofJson_object decoder waits fields tag payload]
    rfl

end Tagged

/-! ## Summaries -/

namespace Stats

/-- A field, if it is met just once; `met` is what has been met of it before. -/
def field (decode : Draft → Option β) : Option β → List Draft → Option β
  | met, [] => met
  | none, d :: rest => (decode d).bind fun b => field decode (some b) rest
  | some _, _ :: _ => none

def labelOf (o : Origin) (d : Draft) : Option String := (Format.string.decode o d).toOption

def terminationOf (o : Origin) (d : Draft) : Option Termination :=
  (Format.termination.decode o d).toOption

def subscribersOf (o : Origin) (d : Draft) : Option UInt64 :=
  ((Format.uint64 "usize").decode o d).toOption

/-- The summary of three fields. -/
def summary (label : Option String) (termination : Option Termination)
    (subscribers : Option UInt64) : Option Stats :=
  label.bind fun label => termination.bind fun termination =>
    subscribers.bind fun subscribers => some { label, termination, subscribers }

theorem complete_toOption (p : Partial) :
    p.complete.toOption = summary p.label p.termination p.subscribers := by
  obtain ⟨label, termination, subscribers⟩ := p
  cases label <;> cases termination <;> cases subscribers <;> rfl

@[simp] theorem summary_without_termination (label : Option String) (s : Option UInt64) :
    summary label none s = none :=
  Option.bind_eq_none_iff.2 fun _ _ => rfl

@[simp] theorem summary_without_subscribers (label : Option String) (t : Option Termination) :
    summary label t none = none :=
  Option.bind_eq_none_iff.2 fun _ _ => Option.bind_eq_none_iff.2 fun _ _ => rfl

/-- A field that is met: for the first time it is decoded. -/
theorem field_met (decode : Draft → Except Fault β) (name : String) (met : Option β) (d : Draft)
    (rest : List Draft) :
    field (fun d => (decode d).toOption) met (d :: rest) =
      (fresh name met (Fault.guard none (decode d))).toOption.bind fun b =>
        field (fun d => (decode d).toOption) (some b) rest := by
  cases met <;> rfl

/-- **What a summary means** is settled by what stands under the three keys. -/
theorem decodeMembers_toOption {o : Origin} {ms : List (String × Draft)}
    (whole : ∀ m ∈ ms, m.2.skip = none) (p : Partial) :
    (decodeMembers o p (.ofDrafts ms)).toOption =
      summary (field (labelOf o) p.label (under "label" ms))
        (field (terminationOf o) p.termination (under "termination" ms))
        (field (subscribersOf o) p.subscribers (under "subscribers" ms)) := by
  induction ms generalizing p with
  | nil =>
      show p.complete.toOption = _
      rw [complete_toOption]
      simp only [under, List.filterMap_nil, field]
  | cons m ms ih =>
      obtain ⟨name, d⟩ := m
      obtain ⟨first, others⟩ := List.forall_mem_cons.1 whole
      have ih := ih others
      simp only [Members.ofDrafts, decodeMembers, Json.Found.ok, Fault.reading, Json.under_cons]
      by_cases label : name = "label"
      · subst label
        have others : "label" ≠ "termination" ∧ "label" ≠ "subscribers" := by decide
        have met := field_met (Format.string.decode o) "label" p.label d (under "label" ms)
        simp only [if_neg others.1, if_neg others.2, if_true, List.singleton_append,
          List.nil_append, toOption_bind, toOption_ok, Option.bind_some, ih]
        show _ = summary (field (fun d => (Format.string.decode o d).toOption) _ _) _ _
        rw [met]
        cases (fresh "label" p.label (Fault.guard none (Format.string.decode o d))) <;> rfl
      · by_cases termination : name = "termination"
        · subst termination
          have other : "termination" ≠ "subscribers" := by decide
          have met := field_met (Format.termination.decode o) "termination" p.termination d
            (under "termination" ms)
          simp only [if_neg label, if_neg other, if_true, List.singleton_append,
            List.nil_append, toOption_bind, toOption_ok, Option.bind_some, ih]
          show _ = summary _ (field (fun d => (Format.termination.decode o d).toOption) _ _) _
          rw [met]
          cases fresh "termination" p.termination
            (Fault.guard none (Format.termination.decode o d)) with
          | error fault => exact (summary_without_termination _ _).symm
          | ok termination => rfl
        · by_cases subscribers : name = "subscribers"
          · subst subscribers
            have met := field_met ((Format.uint64 "usize").decode o) "subscribers" p.subscribers d
              (under "subscribers" ms)
            simp only [if_neg label, if_neg termination, if_true, List.singleton_append,
              List.nil_append, toOption_bind, toOption_ok, Option.bind_some, ih]
            show _ = summary _ _ (field (fun d => ((Format.uint64 "usize").decode o d).toOption) _ _)
            rw [met]
            cases fresh "subscribers" p.subscribers
              (Fault.guard none ((Format.uint64 "usize").decode o d)) with
            | error fault => exact (summary_without_subscribers _ _).symm
            | ok subscribers => rfl
          · simp only [if_neg label, if_neg termination, if_neg subscribers, List.nil_append,
              toOption_bind, toOption_ok, Option.bind_some, ← ih]
            rw [first]
            rfl

/-- What three fields mean. -/
def meant (o : Origin) (label termination subscribers : Draft) : Option Stats :=
  summary (labelOf o label) (terminationOf o termination) (subscribersOf o subscribers)

theorem decodeMembers_meant {o : Origin} {ms : List (String × Draft)} {l t s : Draft}
    (whole : ∀ m ∈ ms, m.2.skip = none) (label : under "label" ms = [l])
    (termination : under "termination" ms = [t]) (subscribers : under "subscribers" ms = [s]) :
    (decodeMembers o Partial.none (.ofDrafts ms)).toOption = meant o l t s := by
  rw [decodeMembers_toOption whole, label, termination, subscribers]
  simp only [Partial.none, field, Option.bind_fun_some, meant]

theorem decodeItems_meant (o : Origin) (l t s : Draft) :
    (decodeItems o (.ofDrafts [l, t, s])).toOption = meant o l t s := by
  simp only [decodeItems, Items.ofDrafts, Tagged.item, toOption_bind, toOption_ok,
    Option.bind_some, Tagged.finished, meant, summary, labelOf, terminationOf, subscribersOf]

/-- The keys of a summary. -/
def keys : List String := ["label", "termination", "subscribers"]

/-- Each of the three keys once. -/
def Fields (members : List (String × β)) : Prop :=
  ∀ key ∈ keys, (members.map Prod.fst).count key = 1

instance (members : List (String × β)) : Decidable (Fields members) :=
  inferInstanceAs (Decidable (∀ key ∈ keys, (members.map Prod.fst).count key = 1))

/-- Every object with the three keys decodes alike under all layouts, be it a text or a value,
and like the array of what stands under them. -/
structure IgnoresLayout (f : Format α) : Prop where
  texts : ∀ {text text' : String} {ms ms' : List (String × Draft)},
    IsObject text ms → IsObject text' ms' → Fields ms → Relaid keys ms ms' →
      (f.ofText text').toOption = (f.ofText text).toOption
  values : ∀ {ms ms' : List (String × Json)}, Fields ms → Relaid keys ms ms' →
    (f.ofJson (.object ms')).toOption = (f.ofJson (.object ms)).toOption
  arrayTexts : ∀ {text text' : String} {ms : List (String × Draft)} {l t s : Draft},
    IsObject text ms → Fields ms →
      ("label", l) ∈ ms → ("termination", t) ∈ ms → ("subscribers", s) ∈ ms →
        IsArray text' [l, t, s] → (f.ofText text').toOption = (f.ofText text).toOption
  arrayValues : ∀ {ms : List (String × Json)} {l t s : Json}, Fields ms →
    ("label", l) ∈ ms → ("termination", t) ∈ ms → ("subscribers", s) ∈ ms →
      (f.ofJson (.array [l, t, s])).toOption = (f.ofJson (.object ms)).toOption

theorem Fields.under {members : List (String × β)} (fields : Fields members) :
    ∃ l t s : β, Json.under "label" members = [l] ∧ Json.under "termination" members = [t] ∧
      Json.under "subscribers" members = [s] := by
  have sole : ∀ key ∈ keys, ∃ b, Json.under key members = [b] := by
    intro key known
    have once := fields key known
    rw [← Json.length_under] at once
    exact List.length_eq_one_iff.1 once
  obtain ⟨l, label⟩ := sole "label" (by decide)
  obtain ⟨t, termination⟩ := sole "termination" (by decide)
  obtain ⟨s, subscribers⟩ := sole "subscribers" (by decide)
  exact ⟨l, t, s, label, termination, subscribers⟩

theorem Fields.under_of_mem {members : List (String × β)} (fields : Fields members) {key : String}
    {b : β} (known : key ∈ keys) (member : (key, b) ∈ members) : Json.under key members = [b] :=
  Json.under_of_mem (Nat.le_of_eq (fields key known)) member

theorem Fields.under_relaid {members members' : List (String × β)} (fields : Fields members)
    (relaid : Relaid keys members members') {key : String} (known : key ∈ keys) :
    Json.under key members' = Json.under key members :=
  relaid.under_eq known (Nat.le_of_eq (fields key known))

theorem Fields.of_relaid {members members' : List (String × β)} (fields : Fields members)
    (relaid : Relaid keys members members') : Fields members' := by
  intro key known
  rw [← Json.length_under, fields.under_relaid relaid known, Json.length_under]
  exact fields key known

theorem ofText_object {text : String} {ms : List (String × Draft)} {l t s : Draft}
    (object : IsObject text ms) (label : Json.under "label" ms = [l])
    (termination : Json.under "termination" ms = [t])
    (subscribers : Json.under "subscribers" ms = [s]) :
    (Format.stats.ofText text).toOption = meant Tagged.inside l t s := by
  rw [Format.ofText_toOption object.document,
    ← decodeMembers_meant object.whole label termination subscribers]
  rfl

theorem ofText_array {text : String} {l t s : Draft} (array : IsArray text [l, t, s]) :
    (Format.stats.ofText text).toOption = meant Tagged.inside l t s := by
  rw [Format.ofText_toOption array.document, ← decodeItems_meant]
  rfl

theorem ofJson_object {ms : List (String × Json)} (fields : Fields ms) {l t s : Json}
    (label : Json.under "label" ms = [l]) (termination : Json.under "termination" ms = [t])
    (subscribers : Json.under "subscribers" ms = [s]) :
    (Format.stats.ofJson (.object ms)).toOption =
      meant .tree (Draft.ofJson l.normal) (Draft.ofJson t.normal) (Draft.ofJson s.normal) := by
  obtain ⟨ds, draft, whole, -, same⟩ := Json.draft_object ms
  have moved : ∀ key ∈ keys, ∀ v, Json.under key ms = [v] →
      Json.under key ds = [Draft.ofJson v.normal] := by
    intro key known v here
    rw [same key (Nat.le_of_eq (fields key known)), here, List.map_singleton]
  rw [Format.ofJson, draft,
    ← decodeMembers_meant whole (moved _ (by decide) l label)
      (moved _ (by decide) t termination) (moved _ (by decide) s subscribers)]
  rfl

theorem ofJson_array (l t s : Json) :
    (Format.stats.ofJson (.array [l, t, s])).toOption =
      meant .tree (Draft.ofJson l.normal) (Draft.ofJson t.normal) (Draft.ofJson s.normal) := by
  rw [Format.ofJson, Json.normal, Json.normalItems_eq_map, Draft.ofJson, Json.items_ofList,
    ← decodeItems_meant]
  rfl

/-- **Layouts do not matter** to a summary. -/
theorem ignoresLayout : IgnoresLayout Format.stats where
  texts object object' fields relaid := by
    obtain ⟨l, t, s, label, termination, subscribers⟩ := fields.under
    rw [ofText_object object label termination subscribers,
      ofText_object object' ((fields.under_relaid relaid (by decide)).trans label)
        ((fields.under_relaid relaid (by decide)).trans termination)
        ((fields.under_relaid relaid (by decide)).trans subscribers)]
  values fields relaid := by
    obtain ⟨l, t, s, label, termination, subscribers⟩ := fields.under
    rw [ofJson_object fields label termination subscribers,
      ofJson_object (fields.of_relaid relaid)
        ((fields.under_relaid relaid (by decide)).trans label)
        ((fields.under_relaid relaid (by decide)).trans termination)
        ((fields.under_relaid relaid (by decide)).trans subscribers)]
  arrayTexts object fields label termination subscribers array := by
    rw [ofText_array array, ofText_object object (fields.under_of_mem (by decide) label)
      (fields.under_of_mem (by decide) termination) (fields.under_of_mem (by decide) subscribers)]
  arrayValues fields label termination subscribers := by
    rw [ofJson_array, ofJson_object fields (fields.under_of_mem (by decide) label)
      (fields.under_of_mem (by decide) termination) (fields.under_of_mem (by decide) subscribers)]

end Stats

/-! ## Every payload type -/

namespace Payload

/-- The types of payloads. -/
def all : List Payload := [json, uint8, bool, string, optionalUInt8, int64List]

theorem steady : ∀ p ∈ all, Steady p.format.decode := by
  simp only [all, List.forall_mem_cons]
  exact ⟨Format.json_steady, Format.uint8_steady, Format.bool_steady, Format.string_steady,
    Format.optional_steady Format.uint8_steady, Format.list_steady Format.int64_steady,
    List.forall_mem_nil _⟩

end Payload

namespace Format

theorem outcome_ignoresLayout {f : Format α} {g : Format ε} (value : Steady f.decode)
    (error : Steady g.decode) :
    Tagged.IgnoresLayout ["value", "empty", "error"] (outcome f g) := by
  show Tagged.IgnoresLayout ((outcomeVariants f g).map Prod.fst) (outcome f g)
  refine Tagged.ignoresLayout rfl ?_
  simp only [outcomeVariants, List.forall_mem_cons]
  exact ⟨Body.wrapping_waits value _, Body.bare_waits _ _, Body.wrapping_waits error _,
    List.forall_mem_nil _⟩

theorem signal_ignoresLayout {f : Format α} {g : Format ε} (next : Steady f.decode)
    (error : Steady g.decode) :
    Tagged.IgnoresLayout ["subscribed", "next", "complete", "error"] (signal f g) := by
  show Tagged.IgnoresLayout ((signalVariants f g).map Prod.fst) (signal f g)
  refine Tagged.ignoresLayout rfl ?_
  simp only [signalVariants, List.forall_mem_cons]
  exact ⟨Body.bare_waits _ _, Body.wrapping_waits next _, Body.bare_waits _ _,
    Body.wrapping_waits error _, List.forall_mem_nil _⟩

/-- In an array a variant is spelled by a string.  As an object with its name for a key it is
found under `type` alone. -/
theorem array_spells_variant :
    let ms : List (String × Json) :=
      [(Tagged.Key.tag.name, .object [("value", .null)]), (Tagged.Key.payload.name, .int 1)]
    let f := outcome uint8 string
    Tagged.Fields ms ∧ (f.ofJson (.object ms)).toOption = some (.value 1) ∧
      (f.ofJson (.array (ms.map Prod.snd))).toOption = none := by
  refine ⟨⟨by decide, by decide⟩, ?_, ?_⟩ <;> decide +kernel

/-- **Decoding does not depend on layout.**  Of every payload type, whatever outcome or signal an
object with one tag and at most one payload decodes to, if any, is the same in every order of its
members and with any other members between them; and unless the tag spells out the name of a
variant, the same as that of the array of tag and payload.  An object with the fields of a summary decodes alike in
every order of its members and with any others, and as the array of the three. -/
theorem decoding_ignores_layout :
    (∀ p ∈ Payload.all,
      Tagged.IgnoresLayout ["value", "empty", "error"] (outcome p.format string) ∧
      Tagged.IgnoresLayout ["subscribed", "next", "complete", "error"]
        (signal p.format string)) ∧
    Stats.IgnoresLayout stats :=
  ⟨fun p member =>
    ⟨outcome_ignoresLayout (p.steady member) string_steady,
      signal_ignoresLayout (p.steady member) string_steady⟩,
    Stats.ignoresLayout⟩

/-- A payload in front of its tag, with a member between them that looks like a tag inside, and a
summary whose fields are in reverse. -/
theorem decoding_ignores_layout_reversed :
    let ms : List (String × Json) :=
      [(Tagged.Key.tag.name, .string "value"), (Tagged.Key.payload.name, .int 7)]
    let ms' : List (String × Json) :=
      [(Tagged.Key.payload.name, .int 7), ("note", .array [.object [("type", .null)]]),
        (Tagged.Key.tag.name, .string "value")]
    let f := outcome uint8 string
    let fields : List (String × Json) :=
      [("label", .string "sink"), ("termination", .string "failed"), ("subscribers", .int 2)]
    (f.ofText (Json.object ms).compact).toOption = some (.value 7) ∧
      (f.ofText (Json.object ms').compact).toOption = some (.value 7) ∧
      (f.ofText (Json.array (ms.map Prod.snd)).compact).toOption = some (.value 7) ∧
      (stats.ofText (Json.object fields.reverse).compact).toOption =
        some ⟨"sink", .failed, 2⟩ ∧
      (stats.ofText (Json.array (fields.map Prod.snd)).compact).toOption =
        some ⟨"sink", .failed, 2⟩ := by
  intro ms ms' f fields
  have object : IsObject (Json.object ms).compact _ := .of_compact (by
    simp [ms, Json.All, Json.Plain, Json.Number.Fits])
  have object' : IsObject (Json.object ms').compact _ := .of_compact (by
    simp [ms', Json.All, Json.AllMembers, Json.AllMember, Json.AllItems, Json.Plain,
      Json.Number.Fits])
  have array : IsArray (Json.array (ms.map Prod.snd)).compact _ := .of_compact (by
    simp [ms, Json.All, Json.Plain, Json.Number.Fits])
  have relaid : Relaid Tagged.keys ms ms' :=
    ⟨[("note", .array [.object [("type", .null)]])],
      (List.perm_append_comm : (ms'.take 2 ++ ms'.drop 2).Perm (ms'.drop 2 ++ ms'.take 2)),
      by decide⟩
  have fieldsObject : IsObject (Json.object fields).compact _ := .of_compact (by
    simp [fields, Json.All, Json.Plain, Json.Number.Fits])
  have reversed : IsObject (Json.object fields.reverse).compact _ := .of_compact (by
    simp [fields, Json.All, Json.Plain, Json.Number.Fits])
  have three : IsArray (Json.array (fields.map Prod.snd)).compact _ := .of_compact (by
    simp [fields, Json.All, Json.Plain, Json.Number.Fits])
  have turned : Relaid Stats.keys fields fields.reverse :=
    ⟨[], by simp, by simp⟩
  have decoded : (f.ofText (Json.object ms).compact).toOption = some (.value 7) := by decide +kernel
  have read : (stats.ofText (Json.object fields).compact).toOption = some ⟨"sink", .failed, 2⟩ := by
    decide +kernel
  have plain : ¬ SpelledOut ["value", "empty", "error"] (Draft.ofJson (.string "value")) := by
    intro spelled
    obtain ⟨name, -, object⟩ := spelledOut_ofJson spelled
    cases object
  have tagged := (decoding_ignores_layout.1 .uint8 (by simp [Payload.all])).1
  have summary := decoding_ignores_layout.2
  refine ⟨decoded, ?_, ?_, ?_, ?_⟩
  · exact (tagged.texts object object' ⟨by decide, by decide⟩ (relaid.map _)).trans decoded
  · exact (tagged.arrayTexts object ⟨by decide, by decide⟩ (.head _) (.tail _ (.head _))
      plain array).trans decoded
  · exact (summary.texts fieldsObject reversed (by decide) (turned.map _)).trans read
  · exact (summary.arrayTexts fieldsObject (by decide) (.head _) (.tail _ (.head _))
      (.tail _ (.tail _ (.head _))) three).trans read

end Format

end OneShot
