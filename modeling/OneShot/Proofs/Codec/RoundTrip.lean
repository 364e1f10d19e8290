/-
# OneShot.Proofs.Codec.RoundTrip -- decoding undoes encoding

`Format.RoundTrips f a` says that `a` survives its encoding twice over: as a JSON value,
which every producer keeps in key order, and as compact text, as long as the encoding is
not deeper than a reader of text goes.

A payload's format is *faithful* at a value if the encoding has a draft that decodes to
the value, from wherever it may be read.  That a payload lies in a tagged value changes
its origin, and in a tree also its place: there `payload` comes before `type`, so that the
payload is read as it stands before anyone knows what it is.  Both orders are followed in
`Tagged.Tells`, once for all variants of all tagged types.

The main statement is `decoding_undoes_encoding`, over all payload types.
-/
import OneShot.Proofs.Json.Reading
import OneShot.Codec.Payload

namespace OneShot

set_option autoImplicit false

open Json (Draft Items Members Origin)

variable {α β ε : Type}

/-- A value that JSON text holds exactly: without floating-point numbers, with integers
from -2⁶³ up to 2⁶⁴-1, and with every object in key order. -/
def Json.Regular (v : Json) : Prop := v.All Json.Plain ∧ v.All Json.Ordered

namespace Format

/-- The encoding of `a` decodes to `a` again: as a value, and as text. -/
def RoundTrips (f : Format α) (a : α) : Prop :=
  f.ofJson (f.encode a) = .ok a ∧
    ((f.encode a).depth ≤ Origin.depth → f.ofText (f.toText a) = .ok a)

/-- The encoding of `a` has a draft that decodes to `a`, wherever it comes from. -/
structure Faithful (f : Format α) (a : α) : Prop where
  regular : (f.encode a).Regular
  decodes : ∀ o : Origin, o.Admits (f.encode a).depth →
    f.decode o (Draft.ofJson (f.encode a)) = .ok a

/-- Text is scanned before it is decoded. -/
theorem ofText_of_decode {f : Format α} {a : α} (plain : (f.encode a).All Json.Plain)
    (decodes : f.decode .document (Draft.ofJson (f.encode a)) = .ok a) :
    f.ofText (f.toText a) = .ok a := by
  simp only [ofText, toText, Json.ofString_compact plain, decodes]
  rfl

theorem Faithful.roundTrips {f : Format α} {a : α} (faithful : f.Faithful a) :
    f.RoundTrips a := by
  obtain ⟨⟨plain, ordered⟩, decodes⟩ := faithful
  constructor
  · rw [ofJson, Json.normal_of_ordered _ ordered]
    exact decodes .tree trivial
  · intro shallow
    exact ofText_of_decode plain (decodes .document shallow)

/-! ## Payloads -/

theorem json_faithful {v : Json} (regular : v.Regular) : json.Faithful v where
  regular := regular
  decodes o admits := by
    have read := Json.read_ofJson v o regular.2 admits
    show Fault.reading ((Draft.ofJson v).read o) = .ok v
    rw [read]
    rfl

theorem decodeInt_ofJson {n low high : Int} (expected : String) (within : low ≤ n ∧ n ≤ high) :
    decodeInt expected low high (Draft.ofJson (.int n)) = .ok n := by
  simp only [Draft.ofJson, Json.Found.ok, decodeInt, if_pos within]

/-- An integer of at most 64 bits, and nothing inside. -/
theorem regular_int {n : Int} (fits : Json.Number.Fits n) : (Json.int n).Regular :=
  ⟨fits, trivial⟩

theorem uint8_faithful (n : UInt8) : uint8.Faithful n where
  regular := by
    have small := n.toNat_lt
    refine regular_int ⟨?_, ?_⟩ <;> omega
  decodes o _ := by
    have small := n.toNat_lt
    have within : (0 : Int) ≤ (n.toNat : Int) ∧ (n.toNat : Int) ≤ 255 := by omega
    simp only [uint8, decodeInt_ofJson "u8" within, Except.map]
    rw [Int.toNat_natCast, UInt8.ofNat_toNat]

theorem uint64_faithful (expected : String) (n : UInt64) : (uint64 expected).Faithful n where
  regular := by
    have small := n.toNat_lt
    refine regular_int ⟨?_, ?_⟩ <;> omega
  decodes o _ := by
    have small := n.toNat_lt
    have within : (0 : Int) ≤ (n.toNat : Int) ∧ (n.toNat : Int) ≤ 18446744073709551615 := by
      omega
    simp only [uint64, decodeInt_ofJson expected within, Except.map]
    rw [Int.toNat_natCast, UInt64.ofNat_toNat]

theorem int64_faithful (n : Int64) : int64.Faithful n where
  regular := by
    have low := n.le_toInt
    have high := n.toInt_lt
    refine regular_int ⟨?_, ?_⟩ <;> omega
  decodes o _ := by
    have low := n.le_toInt
    have high := n.toInt_lt
    have within : -9223372036854775808 ≤ n.toInt ∧ n.toInt ≤ 9223372036854775807 := by omega
    simp only [int64, decodeInt_ofJson "i64" within, Except.map, Int64.ofInt_toInt]

theorem bool_faithful (b : Bool) : bool.Faithful b where
  regular := ⟨trivial, trivial⟩
  decodes _ _ := rfl

theorem string_faithful (s : String) : string.Faithful s where
  regular := ⟨trivial, trivial⟩
  decodes _ _ := rfl

theorem eq_null_of_ofJson {v : Json} {loose : Option Json.Break}
    (null : Draft.ofJson v = .scalar { strict := .ok .null, loose := loose }) : v = .null := by
  cases v <;> simp_all [Draft.ofJson, Json.Found.ok]

/-- Null is no value, so a value must not be encoded as null. -/
theorem optional_faithful {f : Format α} {a : Option α} (faithful : ∀ b ∈ a, f.Faithful b)
    (present : ∀ b ∈ a, f.encode b ≠ .null) : (optional f).Faithful a := by
  cases a with
  | none => exact ⟨⟨trivial, trivial⟩, fun _ _ => rfl⟩
  | some a =>
      obtain ⟨regular, decodes⟩ := faithful a rfl
      have nonnull := present a rfl
      refine ⟨regular, fun o admits => ?_⟩
      have decoded := decodes o admits
      show (optional f).decode o (Draft.ofJson (f.encode a)) = .ok (some a)
      simp only [optional]
      split
      · rename_i null
        exact absurd (eq_null_of_ofJson null) nonnull
      · rw [decoded]
        rfl

theorem decodeItems_ofList {f : Format α} {as : List α} {o : Origin}
    (faithful : ∀ a ∈ as, f.Faithful a) (admits : o.Admits (Json.depthItems (as.map f.encode))) :
    decodeItems f o (Items.ofList (as.map f.encode)) = .ok as := by
  induction as with
  | nil =>
      simp only [List.map_nil, Items.ofList, decodeItems]
  | cons a as ih =>
      rw [List.map_cons, Json.depthItems] at admits
      have first := (faithful a List.mem_cons_self).decodes o
        (admits.of_le (Nat.le_max_left _ _))
      have others := ih (fun b member => faithful b (List.mem_cons_of_mem _ member))
        (admits.of_le (Nat.le_max_right _ _))
      simp only [List.map_cons, Items.ofList, decodeItems, first, others, bind, Except.bind]
      rfl

theorem allItems_map {f : Format α} {p : Json → Prop} {as : List α}
    (each : ∀ a ∈ as, (f.encode a).All p) : Json.AllItems p (as.map f.encode) := by
  induction as with
  | nil => trivial
  | cons a as ih =>
      exact ⟨each a List.mem_cons_self,
        ih fun b member => each b (List.mem_cons_of_mem _ member)⟩

theorem list_faithful {f : Format α} {as : List α} (faithful : ∀ a ∈ as, f.Faithful a) :
    (list f).Faithful as where
  regular := by
    refine ⟨⟨trivial, allItems_map fun a member => ?_⟩,
      ⟨trivial, allItems_map fun a member => ?_⟩⟩
    · exact (faithful a member).regular.1
    · exact (faithful a member).regular.2
  decodes o admits := by
    obtain ⟨inside, entered, admits⟩ := Origin.Admits.enter admits
    have items := decodeItems_ofList faithful admits
    simp only [list, Draft.ofJson, entered, Fault.reading, items, bind, Except.bind]

end Format

/-! ## Tagged values -/

namespace Tagged

/-- The name belongs to a variant that makes `a` out of the payload, and of no payload if
there is none. -/
structure Tells (vs : Variants (Body α)) (name : String) (payload : Option Json) (a : α) :
    Prop where
  regular : ∀ v ∈ payload, v.Regular
  named : ∃ body, vs.named name = .ok body ∧
    (payload = none → body.withoutPayload = .ok a) ∧
    ∀ v ∈ payload, ∀ o : Origin, o.Admits v.depth → body.decode o (Draft.ofJson v) = .ok a

/-- A variant that holds a value of a faithful format. -/
theorem Tells.wrapping {vs : Variants (Body α)} {f : Format β} {make : β → α} {name : String}
    {b : β} (named : vs.named name = .ok (.wrapping f make)) (faithful : f.Faithful b) :
    Tells vs name (some (f.encode b)) (make b) where
  regular v same := by
    cases same
    exact faithful.regular
  named := by
    refine ⟨_, named, by simp, fun v same o admits => ?_⟩
    cases same
    show (f.decode o _).map make = _
    rw [faithful.decodes o admits]
    rfl

/-- A variant that holds nothing. -/
theorem Tells.bare {vs : Variants (Body α)} {name what : String} {a : α}
    (named : vs.named name = .ok (.bare a what)) : Tells vs name none a where
  regular v same := by cases same
  named := ⟨_, named, fun _ => rfl, fun v same => by cases same⟩

theorem plain_encode {name : String} {payload : Option Json}
    (plain : ∀ v ∈ payload, v.All Json.Plain) : (encode name payload).All Json.Plain := by
  cases payload with
  | none => exact ⟨trivial, trivial, trivial⟩
  | some v => exact ⟨trivial, trivial, plain v rfl, trivial⟩

/-- In a tree the payload comes first. -/
theorem normal_encode {name : String} {v : Json} (ordered : v.All Json.Ordered) :
    (encode name (some v)).normal =
      .object [(Key.payload.name, v), (Key.tag.name, .string name)] := by
  have different : Key.payload.name ≠ Key.tag.name := by decide
  have before : Key.payload.name < Key.tag.name := by decide
  simp only [encode, Json.normal, Json.normalMembers, Json.normalMember,
    Json.normal_of_ordered v ordered, Json.ofMembers, List.foldl_cons, List.foldl_nil,
    Json.insert, if_neg different, if_pos before]

/-! The members of a tagged value, in the three orders that an encoding can have. -/

theorem decodeMembers_tag {vs : Variants (Body α)} {name : String} {body : Body α} {a : α}
    {o : Origin} (named : vs.named name = .ok body) (bare : body.withoutPayload = .ok a) :
    decodeMembers vs o (Members.ofList [(Key.tag.name, .string name)]) = .ok a := by
  have tag : Key.ofName? Key.tag.name = some .tag := rfl
  simp only [Members.ofList, Members.ofMember, Draft.ofJson, Json.Found.ok, decodeMembers, next?,
    tag, Fault.reading, Fault.guard, Variants.decode, named, bare, bind, Except.bind, pure,
    Except.pure]

theorem decodeMembers_tag_payload {vs : Variants (Body α)} {name : String} {body : Body α}
    {v : Json} {a : α} {o : Origin} (named : vs.named name = .ok body)
    (decoded : body.decode o (Draft.ofJson v) = .ok a) :
    decodeMembers vs o
      (Members.ofList [(Key.tag.name, .string name), (Key.payload.name, v)]) = .ok a := by
  have tag : Key.ofName? Key.tag.name = some .tag := rfl
  have payload : Key.ofName? Key.payload.name = some .payload := rfl
  have string : Draft.ofJson (.string name) = .string (.ok name) := by rw [Draft.ofJson]
  simp only [Members.ofList, Members.ofMember, string, Json.Found.ok, decodeMembers, next?,
    tag, payload, Fault.reading, Fault.guard, Variants.decode, named, decoded, settled, bind,
    Except.bind, pure, Except.pure]

theorem decodeMembers_payload_tag {vs : Variants (Body α)} {name : String} {body : Body α}
    {v : Json} {a : α} {o : Origin} (named : vs.named name = .ok body)
    (read : (Draft.ofJson v).read o = .ok v)
    (decoded : body.decode .tree (Draft.ofJson v) = .ok a) :
    decodeMembers vs o
      (Members.ofList [(Key.payload.name, v), (Key.tag.name, .string name)]) = .ok a := by
  have tag : Key.ofName? Key.tag.name = some .tag := rfl
  have payload : Key.ofName? Key.payload.name = some .payload := rfl
  have string : Draft.ofJson (.string name) = .string (.ok name) := by rw [Draft.ofJson]
  simp only [Members.ofList, Members.ofMember, string, Json.Found.ok, decodeMembers, next?,
    tag, payload, Fault.reading, Fault.guard, Variants.decode, named, read, decoded, settled,
    bind, Except.bind, pure, Except.pure]

theorem decode_object {what : String} {vs : Variants (Body α)} {o inside : Origin}
    (entered : o.enter = .ok inside) (members : List (String × Json)) :
    decode what vs o (Draft.ofJson (.object members)) =
      decodeMembers vs inside (Members.ofList members) := by
  simp only [Draft.ofJson, decode, entered, Fault.reading, bind, Except.bind]

/-- In text the tag comes first, and the payload is decoded where it stands. -/
theorem Tells.decode_text {vs : Variants (Body α)} {name what : String} {payload : Option Json}
    {a : α} (tells : Tells vs name payload a) {o : Origin}
    (admits : o.Admits (encode name payload).depth) :
    decode what vs o (Draft.ofJson (encode name payload)) = .ok a := by
  obtain ⟨body, named, bare, holding⟩ := tells.named
  obtain ⟨inside, entered, room⟩ := Origin.Admits.enter admits
  cases payload with
  | none =>
      show decode what vs o (Draft.ofJson (.object [(Key.tag.name, .string name)])) = _
      rw [decode_object entered]
      exact decodeMembers_tag named (bare rfl)
  | some v =>
      show decode what vs o
        (Draft.ofJson (.object [(Key.tag.name, .string name), (Key.payload.name, v)])) = _
      rw [decode_object entered]
      have deep : inside.Admits v.depth :=
        room.of_le (Nat.le_trans (Nat.le_max_left _ _) (Nat.le_max_right _ _))
      exact decodeMembers_tag_payload named (holding v rfl inside deep)

/-- In a tree the payload is read first, and decoded when the tag is known. -/
theorem Tells.decode_tree {vs : Variants (Body α)} {name what : String} {payload : Option Json}
    {a : α} (tells : Tells vs name payload a) :
    decode what vs .tree (Draft.ofJson (encode name payload).normal) = .ok a := by
  obtain ⟨body, named, bare, holding⟩ := tells.named
  cases payload with
  | none =>
      have alone : (encode name none).normal = .object [(Key.tag.name, .string name)] := rfl
      rw [alone, decode_object rfl]
      exact decodeMembers_tag named (bare rfl)
  | some v =>
      have ordered := (tells.regular v rfl).2
      rw [normal_encode ordered, decode_object rfl]
      exact decodeMembers_payload_tag named (Json.read_ofJson v .tree ordered trivial)
        (holding v rfl .tree trivial)

end Tagged

namespace Format

/-- A format whose variants tell what they are encoded from. -/
theorem roundTrips_of_tells {f : Format α} {a : α} {vs : Variants (Body α)} {what name : String}
    {payload : Option Json} (decoder : f.decode = Tagged.decode what vs)
    (encoder : f.encode a = Tagged.encode name payload) (tells : Tagged.Tells vs name payload a) :
    f.RoundTrips a := by
  constructor
  · rw [ofJson, encoder, decoder]
    exact tells.decode_tree
  · intro shallow
    rw [encoder] at shallow
    have plain : (f.encode a).All Json.Plain := by
      rw [encoder]
      exact Tagged.plain_encode fun v member => (tells.regular v member).1
    refine ofText_of_decode plain ?_
    rw [encoder, decoder]
    exact tells.decode_text shallow

/-- An outcome comes back if its payload does. -/
theorem outcome_roundTrips {f : Format α} {g : Format ε} (o : Outcome α ε)
    (value : ∀ a, o = .value a → f.Faithful a) (error : ∀ e, o = .error e → g.Faithful e) :
    (outcome f g).RoundTrips o := by
  cases o with
  | value a => exact roundTrips_of_tells rfl rfl (.wrapping rfl (value a rfl))
  | empty => exact roundTrips_of_tells rfl rfl (.bare rfl)
  | error e => exact roundTrips_of_tells rfl rfl (.wrapping rfl (error e rfl))

/-- A signal comes back if its payload does. -/
theorem signal_roundTrips {f : Format α} {g : Format ε} (s : Signal α ε)
    (next : ∀ a, s = .next a → f.Faithful a) (error : ∀ e, s = .error e → g.Faithful e) :
    (signal f g).RoundTrips s := by
  cases s with
  | subscribed => exact roundTrips_of_tells rfl rfl (.bare rfl)
  | next a => exact roundTrips_of_tells rfl rfl (.wrapping rfl (next a rfl))
  | complete => exact roundTrips_of_tells rfl rfl (.bare rfl)
  | error e => exact roundTrips_of_tells rfl rfl (.wrapping rfl (error e rfl))

/-! ## Terminations, handle numbers and summaries -/

theorem termination_faithful (t : Termination) : termination.Faithful t where
  regular := ⟨trivial, trivial⟩
  decodes o _ := by cases t <;> rfl

theorem handleId_faithful (id : HandleId) : handleId.Faithful id where
  regular := (uint64_faithful "u64" id.number).regular
  decodes o admits := by
    have number := (uint64_faithful "u64" id.number).decodes o admits
    show ((uint64 "u64").decode o (Draft.ofJson ((uint64 "u64").encode id.number))).map
      HandleId.mk = _
    rw [number]
    rfl

end Format

namespace Stats

/-! Each of the three fields is decoded when it is met for the first time. -/

theorem decodeMembers_label {o : Origin} {p : Partial} {label : String}
    {rest : List (String × Json)} (unmet : p.label = none) :
    decodeMembers o p (Members.ofList (("label", Format.string.encode label) :: rest)) =
      decodeMembers o { p with label := some label } (Members.ofList rest) := by
  have decoded := (Format.string_faithful label).decodes o o.admits_scalar
  simp only [Members.ofList, Members.ofMember, decodeMembers, Json.Found.ok, Fault.reading,
    Fault.guard, fresh, unmet, decoded, if_true, bind, Except.bind]

theorem decodeMembers_termination {o : Origin} {p : Partial} {termination : Termination}
    {rest : List (String × Json)} (unmet : p.termination = none) :
    decodeMembers o p
        (Members.ofList (("termination", Format.termination.encode termination) :: rest)) =
      decodeMembers o { p with termination := some termination } (Members.ofList rest) := by
  have decoded := (Format.termination_faithful termination).decodes o o.admits_scalar
  have other : "termination" ≠ "label" := by decide
  simp only [Members.ofList, Members.ofMember, decodeMembers, Json.Found.ok, Fault.reading,
    Fault.guard, fresh, unmet, decoded, if_neg other, if_true, bind, Except.bind]

theorem decodeMembers_subscribers {o : Origin} {p : Partial} {subscribers : UInt64}
    {rest : List (String × Json)} (unmet : p.subscribers = none) :
    decodeMembers o p
        (Members.ofList
          (("subscribers", (Format.uint64 "usize").encode subscribers) :: rest)) =
      decodeMembers o { p with subscribers := some subscribers } (Members.ofList rest) := by
  have decoded := (Format.uint64_faithful "usize" subscribers).decodes o o.admits_scalar
  have others : "subscribers" ≠ "label" ∧ "subscribers" ≠ "termination" := by decide
  simp only [Members.ofList, Members.ofMember, decodeMembers, Json.Found.ok, Fault.reading,
    Fault.guard, fresh, unmet, decoded, if_neg others.1, if_neg others.2, if_true, bind,
    Except.bind]

/-- In a tree the fields are in alphabetical order. -/
theorem normal_encode (s : Stats) :
    (Format.stats.encode s).normal =
      .object
        [("label", Format.string.encode s.label),
         ("subscribers", (Format.uint64 "usize").encode s.subscribers),
         ("termination", Format.termination.encode s.termination)] := by
  have atTermination : "subscribers" ≠ "termination" ∧ "subscribers" < "termination" := by decide
  have pastLabel : ∀ key ∈ ["termination", "subscribers"], key ≠ "label" ∧ ¬ key < "label" := by
    decide
  have termination := pastLabel "termination" (by decide)
  have subscribers := pastLabel "subscribers" (by decide)
  simp only [Format.stats, Format.termination, Json.normal, Json.normalMembers, Json.normalMember,
    Json.ofMembers, List.foldl_cons, List.foldl_nil, Json.insert, if_neg termination.1,
    if_neg termination.2, if_neg subscribers.1, if_neg subscribers.2, if_neg atTermination.1,
    if_pos atTermination.2]
  rfl

theorem roundTrips (s : Stats) : Format.stats.RoundTrips s := by
  have complete : ∀ o : Origin, decodeMembers o ⟨s.label, s.termination, s.subscribers⟩
      (Members.ofList []) = .ok s := by
    intro o
    rw [Members.ofList, decodeMembers]
    rfl
  constructor
  · show decode .tree (Draft.ofJson (Format.stats.encode s).normal) = _
    rw [normal_encode]
    simp only [Draft.ofJson, decode, Origin.enter, Fault.reading, bind, Except.bind]
    rw [decodeMembers_label rfl, decodeMembers_subscribers rfl, decodeMembers_termination rfl]
    exact complete .tree
  · intro _
    have plain : (Format.stats.encode s).All Json.Plain :=
      ⟨trivial, trivial, trivial,
        (Format.uint64_faithful "usize" s.subscribers).regular.1, trivial⟩
    refine Format.ofText_of_decode plain ?_
    show decode .document (Draft.ofJson (.object
      [("label", Format.string.encode s.label),
       ("termination", Format.termination.encode s.termination),
       ("subscribers", (Format.uint64 "usize").encode s.subscribers)])) = _
    simp only [Draft.ofJson, decode, Origin.enter, Origin.document, Origin.depth, Fault.reading,
      bind, Except.bind]
    rw [decodeMembers_label rfl, decodeMembers_termination rfl, decodeMembers_subscribers rfl]
    exact complete _

end Stats

namespace Format

/-! ## Every payload type -/

/-- **Decoding undoes encoding**, as a value and as compact text: for every outcome and
every signal with errors that are strings, over arbitrary JSON, 8-bit numbers, Booleans,
strings, optional numbers and lists of 64-bit numbers, and for every termination, every
handle number and every summary. -/
theorem decoding_undoes_encoding :
    ((∀ o : Outcome Json String, (∀ v, o = .value v → v.Regular) →
        (outcome json string).RoundTrips o) ∧
      (∀ o : Outcome UInt8 String, (outcome uint8 string).RoundTrips o) ∧
      (∀ o : Outcome Bool String, (outcome bool string).RoundTrips o) ∧
      (∀ o : Outcome String String, (outcome string string).RoundTrips o) ∧
      (∀ o : Outcome (Option UInt8) String, (outcome (optional uint8) string).RoundTrips o) ∧
      ∀ o : Outcome (List Int64) String, (outcome (list int64) string).RoundTrips o) ∧
    ((∀ s : Signal Json String, (∀ v, s = .next v → v.Regular) →
        (signal json string).RoundTrips s) ∧
      (∀ s : Signal UInt8 String, (signal uint8 string).RoundTrips s) ∧
      (∀ s : Signal Bool String, (signal bool string).RoundTrips s) ∧
      (∀ s : Signal String String, (signal string string).RoundTrips s) ∧
      (∀ s : Signal (Option UInt8) String, (signal (optional uint8) string).RoundTrips s) ∧
      ∀ s : Signal (List Int64) String, (signal (list int64) string).RoundTrips s) ∧
    (∀ t : Termination, termination.RoundTrips t) ∧
    (∀ id : HandleId, handleId.RoundTrips id) ∧
    ∀ s : Stats, stats.RoundTrips s := by
  have option : ∀ n : Option UInt8, (optional uint8).Faithful n := fun n =>
    optional_faithful (fun b _ => uint8_faithful b) fun b _ null => by cases null
  have numbers : ∀ ns : List Int64, (list int64).Faithful ns := fun ns =>
    list_faithful fun n _ => int64_faithful n
  refine ⟨⟨fun o regular => ?_, fun o => ?_, fun o => ?_, fun o => ?_, fun o => ?_, fun o => ?_⟩,
    ⟨fun s regular => ?_, fun s => ?_, fun s => ?_, fun s => ?_, fun s => ?_, fun s => ?_⟩,
    fun t => (termination_faithful t).roundTrips, fun id => (handleId_faithful id).roundTrips,
    Stats.roundTrips⟩
  · exact outcome_roundTrips o (fun v same => json_faithful (regular v same))
      fun e _ => string_faithful e
  · exact outcome_roundTrips o (fun n _ => uint8_faithful n) fun e _ => string_faithful e
  · exact outcome_roundTrips o (fun b _ => bool_faithful b) fun e _ => string_faithful e
  · exact outcome_roundTrips o (fun t _ => string_faithful t) fun e _ => string_faithful e
  · exact outcome_roundTrips o (fun n _ => option n) fun e _ => string_faithful e
  · exact outcome_roundTrips o (fun ns _ => numbers ns) fun e _ => string_faithful e
  · exact signal_roundTrips s (fun v same => json_faithful (regular v same))
      fun e _ => string_faithful e
  · exact signal_roundTrips s (fun n _ => uint8_faithful n) fun e _ => string_faithful e
  · exact signal_roundTrips s (fun b _ => bool_faithful b) fun e _ => string_faithful e
  · exact signal_roundTrips s (fun t _ => string_faithful t) fun e _ => string_faithful e
  · exact signal_roundTrips s (fun n _ => option n) fun e _ => string_faithful e
  · exact signal_roundTrips s (fun ns _ => numbers ns) fun e _ => string_faithful e

/-- A payload that looks like an outcome itself, with the largest number and with characters
that have to be escaped. -/
def nested : Json :=
  .object
    [("payload", .array [.null, .int 18446744073709551615, .int (-9223372036854775808)]),
     ("type", .string "em\"p\\ty\n\x00é𝄞")]

theorem decoding_undoes_encoding_nested :
    nested.Regular ∧ ((outcome json string).encode (.value nested)).depth ≤ Origin.depth ∧
      (outcome json string).ofJson ((outcome json string).encode (.value nested)) =
        .ok (.value nested) ∧
      (outcome json string).ofText ((outcome json string).toText (.value nested)) =
        .ok (.value nested) := by
  have regular : nested.Regular := by
    constructor
    · simp [nested, Json.All, Json.AllMembers, Json.AllMember, Json.AllItems, Json.Plain,
        Json.Number.Fits]
    · have keys : (["payload", "type"] : List String).Pairwise (· < ·) := by decide
      exact ⟨keys, ⟨trivial, trivial, trivial, trivial, trivial⟩, trivial, trivial⟩
  have shallow : ((outcome json string).encode (.value nested)).depth ≤ Origin.depth := by
    decide
  have back := decoding_undoes_encoding.1.1 (.value nested) fun v same => by
    cases same
    exact regular
  exact ⟨regular, shallow, back.1, back.2 shallow⟩

end Format

end OneShot
