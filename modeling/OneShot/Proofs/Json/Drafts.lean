/-
# OneShot.Proofs.Json.Drafts -- the drafts of texts and of values

The scalars of a draft are scalars (`Draft.Proper`), be it the draft of a text
(`proper_ofString`) or of a value (`proper_ofJson`).  What a reader makes of such a draft has its
objects in key order (`ordered_read`), so that it reads as itself once more.

A document is an object if a reader that only passes over it finds nothing in its way, and all of
its keys are text (`IsObject`); whatever is written in it is then a list of keys and drafts
(`Members.ofDrafts`).  `under key` are the entries with a key.  Bringing an object into key order
leaves them as they are, if there is at most one (`under_ofMembers`).
-/
import OneShot.Proofs.Json.Reading
import OneShot.Json.Parser

namespace OneShot.Json

set_option autoImplicit false

variable {β γ : Type}

/-! ## Scalars are scalars -/

/-- Neither a string nor a container. -/
def Scalar : Json → Prop
  | null | bool _ | int _ | float _ => True
  | _ => False

mutual

/-- The scalars in a draft are scalars. -/
def Draft.Proper : Draft → Prop
  | .missing _ | .string _ => True
  | .scalar found => ∀ v, found.strict = .ok v → v.Scalar
  | .array items => items.Proper
  | .object members => members.Proper

def Items.Proper : Items → Prop
  | .closed | .broken _ => True
  | .item d rest => d.Proper ∧ rest.Proper

def Members.Proper : Members → Prop
  | .closed | .broken _ | .dangling _ => True
  | .member _ _ value rest => value.Proper ∧ rest.Proper

end

/-- What is broken has no value. -/
theorem proper_broken (b : Break) : (Draft.scalar (.broken b)).Proper := by
  simp [Draft.Proper, Found.broken]

theorem proper_ok {v : Json} (scalar : v.Scalar) : (Draft.scalar (.ok v)).Proper := by
  simpa [Draft.Proper, Found.ok] using scalar

mutual

theorem proper_ofJson : ∀ v : Json, (Draft.ofJson v).Proper
  | null | bool _ | int _ | float _ => by
      simp only [Draft.ofJson]
      exact proper_ok trivial
  | string _ => by simp only [Draft.ofJson, Draft.Proper]
  | array items => by
      simp only [Draft.ofJson, Draft.Proper]
      exact proper_ofItems items
  | object members => by
      simp only [Draft.ofJson, Draft.Proper]
      exact proper_ofMembers members

theorem proper_ofItems : ∀ items : List Json, (Items.ofList items).Proper
  | [] => by simp only [Items.ofList, Items.Proper]
  | v :: items => by
      simp only [Items.ofList, Items.Proper]
      exact ⟨proper_ofJson v, proper_ofItems items⟩

theorem proper_ofMembers : ∀ members : List (String × Json), (Members.ofList members).Proper
  | [] => by simp only [Members.ofList, Members.Proper]
  | (_, v) :: members => by
      simp only [Members.ofList, Members.ofMember, Members.Proper]
      exact ⟨proper_ofJson v, proper_ofMembers members⟩

end

/-! ## Scanning -/

theorem scanWord_proper (v : Json) (scalar : v.Scalar) (word cs : List Char) :
    (Draft.scalar (scanWord v word cs).1).Proper := by
  induction word generalizing cs with
  | nil => exact proper_ok scalar
  | cons w word ih =>
      cases cs with
      | nil => exact proper_broken _
      | cons c cs =>
          rw [scanWord]
          split
          · exact ih cs
          · exact proper_broken _

namespace Number

/-- A number that ends too early has no value. -/
def Halts (found : Found Json) : Prop := ∃ b, found.strict = .error b

theorem halts_short (rest : List Char) : Halts (short rest) := by
  rw [short]
  split
  · exact ⟨_, rfl⟩
  · exact ⟨_, rfl⟩

/-- A run of digits must not be empty. -/
theorem halts_run {run left : List Char} {next : γ} {found : Found Json}
    (stops : (if run.isEmpty then .error (short left) else .ok next) = Except.error found) :
    Halts found := by
  split at stops
  · cases stops
    exact halts_short _
  · cases stops

theorem halts_whole {cs : List Char} {found : Found Json} (stops : scanWhole cs = .error found) :
    Halts found := by
  simp only [scanWhole] at stops
  split at stops
  · cases stops
    exact halts_short _
  · cases stops
    exact ⟨_, rfl⟩
  · cases stops

theorem halts_fraction {cs : List Char} {found : Found Json}
    (stops : scanFraction cs = .error found) : Halts found := by
  rw [scanFraction.eq_def] at stops
  split at stops
  · exact halts_run stops
  · cases stops

theorem halts_exponent {cs : List Char} {found : Found Json}
    (stops : scanExponent cs = .error found) : Halts found := by
  rw [scanExponent.eq_def] at stops
  split at stops
  · split at stops
    · exact halts_run stops
    · cases stops
  · cases stops

theorem halts_unsigned {negative : Bool} {cs : List Char} {found : Found Json}
    (stops : scanUnsigned negative cs = .error found) : Halts found := by
  simp only [scanUnsigned, bind, Except.bind] at stops
  split at stops
  · cases stops
    exact halts_whole ‹_›
  · split at stops
    · cases stops
      exact halts_fraction ‹_›
    · split at stops
      · cases stops
        exact halts_exponent ‹_›
      · cases stops

theorem scalar_value {p : Parts} {v : Json} (value : p.value = .ok v) : v.Scalar := by
  simp only [Parts.value] at value
  split at value
  · cases value
    trivial
  · split at value
    · cases value
      trivial
    · split at value
      · cases value
        trivial
      · cases value

theorem scan_proper (cs : List Char) : (Draft.scalar (scan cs).1).Proper := by
  simp only [Draft.Proper]
  intro v read
  simp only [scan] at read
  split at read
  · exact scalar_value read
  · rename_i found stops
    obtain ⟨b, halted⟩ : Halts found := by
      split at stops
      · exact halts_unsigned stops
      · exact halts_unsigned stops
    rw [halted] at read
    cases read

end Number

/-- Whatever the scanners find within a bound is proper. -/
structure ScansProper (bound : Nat) : Prop where
  value : ∀ cs, (scanValue bound cs).1.Proper
  items : ∀ first cs, (scanItems bound first cs).1.Proper
  item : ∀ cs, (scanItem bound cs).1.Proper
  members : ∀ first cs, (scanMembers bound first cs).1.Proper
  member : ∀ cs, (scanMember bound cs).1.Proper

theorem ScansProper.zero : ScansProper 0 := by
  constructor <;> intros <;> simp only [scanValue, scanItems, scanItem, scanMembers, scanMember,
    Draft.Proper, Items.Proper, Members.Proper]

theorem ScansProper.succ {bound : Nat} (within : ScansProper bound) : ScansProper (bound + 1) where
  value cs := by
    rw [scanValue]
    split
    · simp only [Draft.Proper]
    · rename_i c rest _
      split
      · simp only [Draft.Proper]
      · split
        · simp only [Draft.Proper]
          exact within.items true rest
        · split
          · simp only [Draft.Proper]
            exact within.members true rest
          · split
            · exact scanWord_proper .null trivial _ _
            · split
              · exact scanWord_proper (.bool true) trivial _ _
              · split
                · exact scanWord_proper (.bool false) trivial _ _
                · split
                  · exact Number.scan_proper _
                  · simp only [Draft.Proper]
  items first cs := by
    rw [scanItems]
    split
    · simp only [Items.Proper]
    · split
      · simp only [Items.Proper]
      · split
        · exact within.item _
        · split
          · exact within.item _
          · simp only [Items.Proper]
  item cs := by
    have value := within.value cs
    rw [scanItem]
    split
    · rename_i scanned
      rw [scanned] at value
      simp only [Items.Proper]
      exact ⟨value, within.items false _⟩
    · rename_i scanned
      rw [scanned] at value
      simp only [Items.Proper]
      exact ⟨value, trivial⟩
  members first cs := by
    rw [scanMembers]
    split
    · simp only [Members.Proper]
    · split
      · simp only [Members.Proper]
      · split
        · split
          · exact within.member _
          · simp only [Members.Proper]
        · split
          · split
            · exact within.member _
            · simp only [Members.Proper]
            · simp only [Members.Proper]
          · simp only [Members.Proper]
  member cs := by
    rw [scanMember]
    split
    · simp only [Members.Proper, Draft.Proper, and_self]
    · split
      · rename_i rest _
        have value := within.value rest
        split
        · rename_i scanned
          rw [scanned] at value
          simp only [Members.Proper]
          exact ⟨value, within.members false _⟩
        · rename_i scanned
          rw [scanned] at value
          simp only [Members.Proper]
          exact ⟨value, trivial⟩
      · simp only [Members.Proper, Draft.Proper, and_self]
      · simp only [Members.Proper, Draft.Proper, and_self]

/-- **The draft of a text is proper.** -/
theorem proper_ofString (text : String) : (Document.ofString text).value.Proper := by
  have scans : ∀ bound, ScansProper bound := by
    intro bound
    induction bound with
    | zero => exact .zero
    | succ bound ih => exact ih.succ
  show (scanValue (3 * text.toList.length + 3) text.toList).1.Proper
  exact (scans _).value _

/-! ## Key order -/

theorem lt_of_not_lt {k l : String} (different : k ≠ l) (notLess : ¬ k < l) : l < k := by
  refine Decidable.byContradiction fun notMore => different ?_
  exact String.le_antisymm (String.not_lt.1 notMore) (String.not_lt.1 notLess)

theorem mem_keys_insert {key k : String} {v : Json} {members : List (String × Json)}
    (member : k ∈ (insert key v members).map Prod.fst) :
    k = key ∨ k ∈ members.map Prod.fst := by
  induction members with
  | nil => exact .inl (by simpa [insert] using member)
  | cons m members ih =>
      obtain ⟨l, w⟩ := m
      rw [insert] at member
      split at member
      · rename_i same
        subst same
        exact .inr member
      · split at member
        · exact (List.mem_cons.1 member).imp id id
        · rcases List.mem_cons.1 member with here | there
          · exact .inr (here ▸ List.mem_cons_self)
          · exact (ih there).imp id (List.mem_cons_of_mem _)

/-- A member is put where its key belongs. -/
theorem insert_ordered {key : String} {v : Json} {members : List (String × Json)}
    (ordered : (members.map Prod.fst).Pairwise (· < ·)) :
    ((insert key v members).map Prod.fst).Pairwise (· < ·) := by
  induction members with
  | nil => simp [insert]
  | cons m members ih =>
      obtain ⟨l, w⟩ := m
      obtain ⟨first, others⟩ := List.pairwise_cons.1 ordered
      rw [insert]
      split
      · rename_i same
        subst same
        exact ordered
      · rename_i different
        split
        · rename_i less
          refine List.pairwise_cons.2 ⟨fun k member => ?_, ordered⟩
          rcases List.mem_cons.1 member with rfl | member
          · exact less
          · exact String.lt_trans less (first k member)
        · rename_i notLess
          refine List.pairwise_cons.2 ⟨fun k member => ?_, ih others⟩
          rcases mem_keys_insert member with rfl | member
          · exact lt_of_not_lt different notLess
          · exact first k member

theorem allMembers_insert {p : Json → Prop} {key : String} {v : Json}
    {members : List (String × Json)} (value : v.All p) (all : AllMembers p members) :
    AllMembers p (insert key v members) := by
  induction members with
  | nil => exact ⟨value, trivial⟩
  | cons m members ih =>
      obtain ⟨l, w⟩ := m
      rw [insert]
      split
      · exact ⟨value, all.2⟩
      · split
        · exact ⟨value, all⟩
        · exact ⟨all.1, ih all.2⟩

/-- Members that were put where they belong one by one. -/
theorem foldl_insert_ordered {members sorted : List (String × Json)}
    (ordered : (sorted.map Prod.fst).Pairwise (· < ·)) :
    ((members.foldl (fun sorted m => insert m.1 m.2 sorted) sorted).map Prod.fst).Pairwise
      (· < ·) := by
  induction members generalizing sorted with
  | nil => exact ordered
  | cons m members ih => exact ih (insert_ordered ordered)

theorem allMembers_foldl {p : Json → Prop} {members sorted : List (String × Json)}
    (all : AllMembers p members) (allSorted : AllMembers p sorted) :
    AllMembers p (members.foldl (fun sorted m => insert m.1 m.2 sorted) sorted) := by
  induction members generalizing sorted with
  | nil => exact allSorted
  | cons m members ih =>
      obtain ⟨key, v⟩ := m
      exact ih all.2 (allMembers_insert all.1 allSorted)

theorem ofMembers_all_ordered {members : List (String × Json)} (all : AllMembers Ordered members) :
    (ofMembers members).All Ordered :=
  ⟨foldl_insert_ordered .nil, allMembers_foldl all trivial⟩

theorem Scalar.all_ordered {v : Json} (scalar : v.Scalar) : v.All Ordered := by
  cases v with
  | null | bool _ | int _ | float _ => trivial
  | string _ | array _ | object _ => cases scalar

mutual

/-- **What a reader finds** has its objects in key order. -/
theorem ordered_read : ∀ (d : Draft) (o : Origin) (v : Json), d.Proper → d.read o = .ok v →
    v.All Ordered
  | .missing _, _, _, _, read => by simp [Draft.read] at read
  | .scalar found, _, v, proper, read => by
      simp only [Draft.read] at read
      simp only [Draft.Proper] at proper
      exact (proper v read).all_ordered
  | .string found, _, v, _, read => by
      simp only [Draft.read] at read
      cases strict : found.strict with
      | error b => simp [strict, Except.map] at read
      | ok s =>
          simp only [strict, Except.map, Except.ok.injEq] at read
          subst read
          trivial
  | .array items, o, v, proper, read => by
      simp only [Draft.read, bind, Except.bind] at read
      split at read
      · cases read
      · split at read
        · cases read
        · rename_i vs readItems
          cases read
          simp only [Draft.Proper] at proper
          exact ⟨trivial, orderedItems_read items _ vs proper readItems⟩
  | .object members, o, v, proper, read => by
      simp only [Draft.read, bind, Except.bind] at read
      split at read
      · cases read
      · split at read
        · cases read
        · rename_i ms readMembers
          cases read
          simp only [Draft.Proper] at proper
          exact ofMembers_all_ordered (orderedMembers_read members _ ms proper readMembers)

theorem orderedItems_read : ∀ (items : Items) (o : Origin) (vs : List Json), items.Proper →
    items.read o = .ok vs → AllItems Ordered vs
  | .closed, _, vs, _, read => by
      simp only [Items.read, Except.ok.injEq] at read
      subst read
      trivial
  | .broken _, _, _, _, read => by simp [Items.read] at read
  | .item d rest, o, vs, proper, read => by
      simp only [Items.read, bind, Except.bind] at read
      split at read
      · cases read
      · rename_i v first
        split at read
        · cases read
        · rename_i others readRest
          cases read
          simp only [Items.Proper] at proper
          exact ⟨ordered_read d o v proper.1 first,
            orderedItems_read rest o others proper.2 readRest⟩

theorem orderedMembers_read : ∀ (members : Members) (o : Origin) (ms : List (String × Json)),
    members.Proper → members.read o = .ok ms → AllMembers Ordered ms
  | .closed, _, ms, _, read => by
      simp only [Members.read, Except.ok.injEq] at read
      subst read
      trivial
  | .broken _, _, _, _, read => by simp [Members.read] at read
  | .dangling _, _, _, _, read => by simp [Members.read] at read
  | .member key colon value rest, o, ms, proper, read => by
      simp only [Members.read, bind, Except.bind] at read
      split at read
      · cases read
      · split at read
        · cases read
        · rename_i v first
          split at read
          · cases read
          · rename_i others readRest
            cases read
            simp only [Members.Proper] at proper
            cases colon with
            | some b => cases first
            | none =>
                exact ⟨ordered_read value o v proper.1 first,
                  orderedMembers_read rest o others proper.2 readRest⟩

end

/-- What has been read is read as itself. -/
theorem read_again {d : Draft} {o : Origin} {v : Json} (proper : d.Proper)
    (read : d.read o = .ok v) : (Draft.ofJson v).read .tree = .ok v :=
  read_ofJson v .tree (ordered_read d o v proper read) trivial

/-! ## Leaves -/

/-- The value of a draft that is no container. -/
def Draft.leaf? : Draft → Option Json
  | .scalar found => found.strict.toOption
  | .string found => found.strict.toOption.map .string
  | _ => none

theorem read_of_leaf {d : Draft} {v : Json} (leaf : d.leaf? = some v) (o : Origin) :
    d.read o = .ok v := by
  match d with
  | .missing _ | .array _ | .object _ => cases leaf
  | .scalar found =>
      simp only [Draft.leaf?] at leaf
      simp only [Draft.read]
      cases strict : found.strict with
      | error b => simp [strict, Except.toOption] at leaf
      | ok w => simpa [strict, Except.toOption] using leaf
  | .string found =>
      simp only [Draft.leaf?] at leaf
      simp only [Draft.read]
      cases strict : found.strict with
      | error b => simp [strict, Except.toOption] at leaf
      | ok s => simpa [strict, Except.toOption, Except.map] using leaf

/-- A reader finds a leaf where there is one, and nowhere else. -/
theorem leaf_of_read {d : Draft} {o : Origin} {v : Json} (proper : d.Proper)
    (read : d.read o = .ok v) : (Draft.ofJson v).leaf? = d.leaf? := by
  match d with
  | .missing _ => simp [Draft.read] at read
  | .scalar found =>
      simp only [Draft.read] at read
      simp only [Draft.Proper] at proper
      simp only [Draft.leaf?, read]
      have scalar := proper v read
      cases v with
      | null | bool _ | int _ | float _ => simp only [Draft.ofJson, Found.ok]
      | string _ | array _ | object _ => cases scalar
  | .string found =>
      simp only [Draft.read] at read
      cases strict : found.strict with
      | error b => simp [strict, Except.map] at read
      | ok s =>
          simp only [strict, Except.map, Except.ok.injEq] at read
          subst read
          simp [Draft.ofJson, Draft.leaf?, Found.ok, strict, Except.toOption]
  | .array items =>
      simp only [Draft.read, bind, Except.bind] at read
      split at read
      · cases read
      · split at read
        · cases read
        · cases read
          simp only [Draft.ofJson, Draft.leaf?]
  | .object members =>
      simp only [Draft.read, bind, Except.bind] at read
      split at read
      · cases read
      · split at read
        · cases read
        · cases read
          simp only [ofMembers, Draft.ofJson, Draft.leaf?]

/-! ## What stands under a key -/

/-- The entries with a key. -/
def under (key : String) (members : List (String × β)) : List β :=
  members.filterMap fun m => if m.1 = key then some m.2 else none

theorem under_cons (key : String) (m : String × β) (members : List (String × β)) :
    under key (m :: members) = (if m.1 = key then [m.2] else []) ++ under key members := by
  rw [under, List.filterMap_cons]
  split
  · rename_i none
    rw [if_neg fun same => by simp [if_pos same] at none]
    rfl
  · rename_i b some
    split at some
    · rename_i same
      cases some
      rw [if_pos same]
      rfl
    · cases some

theorem under_append (key : String) (members others : List (String × β)) :
    under key (members ++ others) = under key members ++ under key others :=
  List.filterMap_append

theorem under_map (f : β → γ) (key : String) (members : List (String × β)) :
    under key (members.map fun m => (m.1, f m.2)) = (under key members).map f := by
  induction members with
  | nil => rfl
  | cons m members ih =>
      rw [List.map_cons, under_cons, under_cons, ih, List.map_append]
      split
      · rfl
      · rfl

theorem length_under (key : String) (members : List (String × β)) :
    (under key members).length = (members.map Prod.fst).count key := by
  induction members with
  | nil => rfl
  | cons m members ih =>
      rw [under_cons, List.length_append, ih, List.map_cons, List.count_cons]
      by_cases same : m.1 = key
      · simp [same, Nat.add_comm]
      · simp [same]

theorem under_of_not_mem {key : String} {members : List (String × β)}
    (unknown : ∀ m ∈ members, m.1 ≠ key) : under key members = [] := by
  refine List.filterMap_eq_nil_iff.2 fun m member => ?_
  exact if_neg (unknown m member)

/-- What stands under a key that occurs once. -/
theorem under_of_mem {key : String} {members : List (String × β)} {b : β}
    (once : (members.map Prod.fst).count key ≤ 1) (member : (key, b) ∈ members) :
    under key members = [b] := by
  have here : b ∈ under key members := List.mem_filterMap.2 ⟨_, member, if_pos rfl⟩
  rw [← length_under] at once
  have sole := Nat.le_antisymm once (List.length_pos_of_mem here)
  obtain ⟨c, found⟩ := List.length_eq_one_iff.1 sole
  rw [found] at here ⊢
  rw [List.mem_singleton.1 here]

theorem under_insert {k key : String} {v : Json} {members : List (String × Json)}
    (ordered : (members.map Prod.fst).Pairwise (· < ·)) :
    under k (insert key v members) = if key = k then [v] else under k members := by
  induction members with
  | nil =>
      rw [insert, under_cons]
      exact List.append_nil _
  | cons m members ih =>
      obtain ⟨l, w⟩ := m
      obtain ⟨first, others⟩ := List.pairwise_cons.1 ordered
      -- a key that is smaller than all others is not among them
      have absent : ∀ k, k = l ∨ k < l → under k members = [] := by
        intro k atMost
        refine under_of_not_mem fun m member same => ?_
        have more : l < k := same ▸ first m.1 (List.mem_map_of_mem member)
        rcases atMost with rfl | less
        · exact String.lt_irrefl _ more
        · exact String.lt_asymm more less
      rw [insert]
      split
      · rename_i same
        subst same
        rw [under_cons, under_cons]
        split
        · rename_i same
          simp [absent k (.inl same.symm)]
        · rfl
      · split
        · rename_i different less
          rw [under_cons]
          split
          · rename_i same
            subst same
            have other : ¬ l = key := fun same => different same.symm
            simp [under_cons, if_neg other, absent key (.inr less)]
          · rfl
        · rename_i different _
          rw [under_cons, ih others, under_cons]
          split
          · rename_i same
            subst same
            have other : ¬ key = l := different
            simp [if_neg other]
          · rfl

theorem under_foldl_insert {k : String} {members sorted : List (String × Json)}
    (ordered : (sorted.map Prod.fst).Pairwise (· < ·))
    (once : (under k sorted ++ under k members).length ≤ 1) :
    under k (members.foldl (fun sorted m => insert m.1 m.2 sorted) sorted) =
      under k sorted ++ under k members := by
  induction members generalizing sorted with
  | nil => simp [under]
  | cons m members ih =>
      obtain ⟨key, v⟩ := m
      rw [under_cons] at once ⊢
      have inserted := @under_insert k key v _ ordered
      by_cases same : key = k
      · simp only [if_pos same, List.length_append, List.length_singleton] at once inserted ⊢
        have none : under k sorted = [] := List.length_eq_zero_iff.1 (by omega)
        have last : under k members = [] := List.length_eq_zero_iff.1 (by omega)
        rw [List.foldl_cons, ih (insert_ordered ordered) (by simp [inserted, last]), inserted, none]
        rfl
      · simp only [if_neg same, List.nil_append] at once inserted ⊢
        rw [List.foldl_cons, ih (insert_ordered ordered) (by rwa [inserted]), inserted]

/-- Key order leaves alone what stands under a key only once. -/
theorem under_ofMembers {k : String} {members : List (String × Json)}
    (once : (under k members).length ≤ 1) :
    under k (members.foldl (fun sorted m => insert m.1 m.2 sorted) []) = under k members :=
  under_foldl_insert .nil once

/-! ## Other layouts -/

/-- The same members in another order, and more of them under keys that are not `known`. -/
def Relaid (known : List String) (members members' : List (String × β)) : Prop :=
  ∃ more, members'.Perm (members ++ more) ∧ ∀ m ∈ more, m.1 ∉ known

theorem Relaid.map {known : List String} {members members' : List (String × β)}
    (relaid : Relaid known members members') (f : β → γ) :
    Relaid known (members.map fun m => (m.1, f m.2)) (members'.map fun m => (m.1, f m.2)) := by
  obtain ⟨more, perm, unknown⟩ := relaid
  refine ⟨more.map fun m => (m.1, f m.2), ?_, List.forall_mem_map.2 unknown⟩
  rw [← List.map_append]
  exact perm.map _

theorem Relaid.under_perm {known : List String} {members members' : List (String × β)}
    (relaid : Relaid known members members') {key : String} (known' : key ∈ known) :
    (under key members').Perm (under key members) := by
  obtain ⟨more, perm, unknown⟩ := relaid
  have absent : under key more = [] :=
    under_of_not_mem fun m member same => unknown m member (same ▸ known')
  have moved : (under key members').Perm (under key (members ++ more)) := perm.filterMap _
  rwa [under_append, absent, List.append_nil] at moved

/-- What stands under a known key at most once is found there in every layout. -/
theorem Relaid.under_eq {known : List String} {members members' : List (String × β)}
    (relaid : Relaid known members members') {key : String} (known' : key ∈ known)
    (once : (members.map Prod.fst).count key ≤ 1) : under key members' = under key members := by
  have moved := relaid.under_perm known'
  rw [← length_under] at once
  match here : under key members, once with
  | [], _ => exact (here ▸ moved).eq_nil
  | [b], _ => exact List.perm_singleton.1 (here ▸ moved)

/-! ## Documents that are an object or an array -/

/-- Members one after the other, whose keys are text. -/
def Members.ofDrafts : List (String × Draft) → Members
  | [] => .closed
  | (key, d) :: rest => .member (.ok key) none d (ofDrafts rest)

def Items.ofDrafts : List Draft → Items
  | [] => .closed
  | d :: rest => .item d (ofDrafts rest)

/-- The text is an object with these members: well-formed values under keys that are text. -/
structure IsObject (text : String) (members : List (String × Draft)) : Prop where
  document : Document.ofString text = { value := .object (.ofDrafts members), trailing := false }
  whole : ∀ m ∈ members, m.2.skip = none

theorem proper_of_ofDrafts {ms : List (String × Draft)} (proper : (Members.ofDrafts ms).Proper) :
    ∀ m ∈ ms, m.2.Proper := by
  induction ms with
  | nil => exact List.forall_mem_nil _
  | cons m ms ih =>
      obtain ⟨first, others⟩ := proper
      exact List.forall_mem_cons.2 ⟨first, ih others⟩

theorem IsObject.proper {text : String} {ms : List (String × Draft)} (object : IsObject text ms) :
    ∀ m ∈ ms, m.2.Proper := by
  have proper := proper_ofString text
  rw [object.document] at proper
  exact proper_of_ofDrafts proper

/-- The keys of the members are text. -/
def Members.Spelled : Members → Prop
  | .member key _ _ rest => (∃ k, key.strict = .ok k) ∧ rest.Spelled
  | _ => True

theorem exists_ofDrafts : ∀ members : Members, members.skip = none → members.Spelled →
    ∃ ms, members = .ofDrafts ms ∧ ∀ m ∈ ms, m.2.skip = none
  | .closed, _, _ => ⟨[], rfl, by simp⟩
  | .broken _, passes, _ | .dangling _, passes, _ => by simp [Members.skip] at passes
  | .member key colon d rest, passes, spelled => by
      obtain ⟨⟨k, strict⟩, spelled⟩ := spelled
      simp only [Members.skip, Option.orElse_eq_orElse, Option.orElse_eq_or,
        Option.or_eq_none_iff] at passes
      obtain ⟨loose, rfl, whole, passes⟩ := passes
      obtain ⟨ms, rfl, wholes⟩ := exists_ofDrafts rest passes spelled
      obtain ⟨keyStrict, keyLoose⟩ := key
      simp only at strict loose
      subst strict loose
      exact ⟨(k, d) :: ms, rfl, List.forall_mem_cons.2 ⟨whole, wholes⟩⟩

/-- Every document is one that is an object to a reader that passes over it, if its keys are
text. -/
theorem IsObject.of_document {text : String} {members : Members}
    (document : Document.ofString text = { value := .object members, trailing := false })
    (passes : members.skip = none) (spelled : members.Spelled) : ∃ ms, IsObject text ms := by
  obtain ⟨ms, rfl, whole⟩ := exists_ofDrafts members passes spelled
  exact ⟨ms, document, whole⟩

/-- The text is an array of these items. -/
structure IsArray (text : String) (items : List Draft) : Prop where
  document : Document.ofString text = { value := .array (.ofDrafts items), trailing := false }

/-! ## Values -/

mutual

/-- A reader passes over a value without hindrance. -/
theorem skip_ofJson : ∀ v : Json, (Draft.ofJson v).skip = none
  | null | bool _ | int _ | float _ | string _ => by
      simp only [Draft.ofJson, Draft.skip, Found.ok]
  | array items => by
      simp only [Draft.ofJson, Draft.skip]
      exact skip_ofItems items
  | object members => by
      simp only [Draft.ofJson, Draft.skip]
      exact skip_ofMembers members

theorem skip_ofItems : ∀ items : List Json, (Items.ofList items).skip = none
  | [] => by simp only [Items.ofList, Items.skip]
  | v :: items => by
      simp only [Items.ofList, Items.skip, skip_ofJson v, skip_ofItems items]
      rfl

theorem skip_ofMembers : ∀ members : List (String × Json), (Members.ofList members).skip = none
  | [] => by simp only [Members.ofList, Members.skip]
  | (_, v) :: members => by
      simp only [Members.ofList, Members.ofMember, Members.skip, Found.ok, skip_ofJson v,
        skip_ofMembers members]
      rfl

end

theorem ofList_eq_ofDrafts (members : List (String × Json)) :
    Members.ofList members = .ofDrafts (members.map fun m => (m.1, Draft.ofJson m.2)) := by
  induction members with
  | nil => simp only [Members.ofList, List.map_nil, Members.ofDrafts]
  | cons m members ih =>
      obtain ⟨key, v⟩ := m
      simp only [Members.ofList, Members.ofMember, ih, List.map_cons, Members.ofDrafts]

theorem items_ofList (items : List Json) :
    Items.ofList items = .ofDrafts (items.map Draft.ofJson) := by
  induction items with
  | nil => simp only [Items.ofList, List.map_nil, Items.ofDrafts]
  | cons v items ih => simp only [Items.ofList, ih, List.map_cons, Items.ofDrafts]

theorem normalMembers_eq_map (members : List (String × Json)) :
    normalMembers members = members.map fun m => (m.1, m.2.normal) := by
  induction members with
  | nil => rw [normalMembers, List.map_nil]
  | cons m members ih =>
      obtain ⟨key, v⟩ := m
      rw [normalMembers, normalMember, ih, List.map_cons]

theorem normalItems_eq_map (items : List Json) : normalItems items = items.map normal := by
  induction items with
  | nil => rw [normalItems, List.map_nil]
  | cons v items ih => rw [normalItems, ih, List.map_cons]

theorem plain_object {members : List (String × Json)} (plain : ∀ m ∈ members, m.2.All Plain) :
    (object members).All Plain := by
  refine ⟨trivial, ?_⟩
  induction members with
  | nil => trivial
  | cons m members ih =>
      obtain ⟨key, v⟩ := m
      obtain ⟨first, others⟩ := List.forall_mem_cons.1 plain
      exact ⟨first, ih others⟩

theorem plain_array {items : List Json} (plain : ∀ v ∈ items, v.All Plain) :
    (array items).All Plain := by
  refine ⟨trivial, ?_⟩
  induction items with
  | nil => trivial
  | cons v items ih =>
      obtain ⟨first, others⟩ := List.forall_mem_cons.1 plain
      exact ⟨first, ih others⟩

/-- The compact text of an object is an object, in whatever order its members are. -/
theorem IsObject.of_compact {members : List (String × Json)}
    (plain : ∀ m ∈ members, m.2.All Plain) :
    IsObject (object members).compact (members.map fun m => (m.1, Draft.ofJson m.2)) where
  document := by rw [ofString_compact (plain_object plain), Draft.ofJson, ofList_eq_ofDrafts]
  whole := List.forall_mem_map.2 fun m _ => skip_ofJson m.2

theorem IsArray.of_compact {items : List Json} (plain : ∀ v ∈ items, v.All Plain) :
    IsArray (array items).compact (items.map Draft.ofJson) where
  document := by rw [ofString_compact (plain_array plain), Draft.ofJson, items_ofList]

/-- The draft of an object in key order: what stands under a key once is still there. -/
theorem draft_object (members : List (String × Json)) :
    ∃ ds, Draft.ofJson (object members).normal = .object (.ofDrafts ds) ∧
      (∀ m ∈ ds, m.2.skip = none) ∧ (∀ m ∈ ds, m.2.Proper) ∧
      ∀ k, (members.map Prod.fst).count k ≤ 1 →
        under k ds = (under k members).map fun v => Draft.ofJson v.normal := by
  refine ⟨((normalMembers members).foldl (fun sorted m => insert m.1 m.2 sorted) []).map
    fun m => (m.1, Draft.ofJson m.2), ?_, ?_, ?_, fun k once => ?_⟩
  · rw [normal, ofMembers, Draft.ofJson, ofList_eq_ofDrafts]
  · exact List.forall_mem_map.2 fun m _ => skip_ofJson m.2
  · exact List.forall_mem_map.2 fun m _ => proper_ofJson m.2
  · have normalOnce : (under k (normalMembers members)).length ≤ 1 := by
      rw [normalMembers_eq_map, under_map, List.length_map, length_under]
      exact once
    rw [under_map, under_ofMembers normalOnce, normalMembers_eq_map, under_map, List.map_map]
    rfl

end OneShot.Json
