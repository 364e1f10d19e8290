/-
# OneShot.Proofs.Json.Reading -- the draft of a value reads as the value

A value that a reader can produce has its objects in key order (`Ordered`).  Bringing such
a value into key order changes nothing (`normal_of_ordered`), and its draft reads as the
value itself (`read_ofJson`), from a tree at any depth and from text as long as the reader
may enter the containers that the value has one inside the other (`Json.depth`).
-/
import OneShot.Proofs.Json.Scanning

namespace OneShot.Json

set_option autoImplicit false

/-- An object has each key once, in increasing order. -/
def Ordered : Json → Prop
  | object members => (members.map Prod.fst).Pairwise (· < ·)
  | _ => True

/-! ## Objects in key order -/

/-- A member whose key is larger than all is put at the end. -/
theorem insert_last {key : String} {v : Json} {members : List (String × Json)}
    (larger : ∀ k ∈ members.map Prod.fst, k < key) :
    insert key v members = members ++ [(key, v)] := by
  induction members with
  | nil => rfl
  | cons m members ih =>
      obtain ⟨k, w⟩ := m
      obtain ⟨first, others⟩ := List.forall_mem_cons.1 larger
      have different : key ≠ k := fun same => String.lt_irrefl k (same ▸ first)
      simp only [insert, if_neg different, if_neg (String.lt_asymm first), ih others,
        List.cons_append]

theorem foldl_insert (members : List (String × Json)) (sorted : List (String × Json))
    (ordered : ((sorted ++ members).map Prod.fst).Pairwise (· < ·)) :
    members.foldl (fun sorted m => insert m.1 m.2 sorted) sorted = sorted ++ members := by
  induction members generalizing sorted with
  | nil => simp
  | cons m members ih =>
      have larger : ∀ k ∈ sorted.map Prod.fst, k < m.1 := by
        intro k member
        rw [List.map_append, List.map_cons] at ordered
        exact (List.pairwise_append.1 ordered).2.2 k member m.1 List.mem_cons_self
      have assoc : sorted ++ m :: members = sorted ++ [m] ++ members := by simp
      rw [assoc] at ordered
      rw [List.foldl_cons, insert_last larger, ih _ ordered, assoc]

/-- Members in key order are the members of their object. -/
theorem ofMembers_of_ordered {members : List (String × Json)}
    (ordered : (members.map Prod.fst).Pairwise (· < ·)) :
    ofMembers members = object members := by
  rw [ofMembers, foldl_insert members [] ordered, List.nil_append]

mutual

/-- A value with its objects in key order is its own normal form. -/
theorem normal_of_ordered : ∀ v : Json, v.All Ordered → v.normal = v
  | null, _ | bool _, _ | int _, _ | float _, _ | string _, _ => by simp only [normal]
  | array items, ordered => by
      rw [normal, normalItems_of_ordered items ordered.2]
  | object members, ordered => by
      rw [normal, normalMembers_of_ordered members ordered.2, ofMembers_of_ordered ordered.1]

theorem normalItems_of_ordered : ∀ items : List Json, AllItems Ordered items →
    normalItems items = items
  | [], _ => by rw [normalItems]
  | v :: items, ordered => by
      rw [normalItems, normal_of_ordered v ordered.1, normalItems_of_ordered items ordered.2]

theorem normalMembers_of_ordered : ∀ members : List (String × Json),
    AllMembers Ordered members → normalMembers members = members
  | [], _ => by rw [normalMembers]
  | (key, v) :: members, ordered => by
      rw [normalMembers, normalMember, normal_of_ordered v ordered.1,
        normalMembers_of_ordered members ordered.2]

end

/-! ## Depth -/

mutual

/-- How many containers are one inside the other. -/
def depth : Json → Nat
  | array items => depthItems items + 1
  | object members => depthMembers members + 1
  | _ => 0

def depthItems : List Json → Nat
  | [] => 0
  | v :: rest => max v.depth (depthItems rest)

def depthMembers : List (String × Json) → Nat
  | [] => 0
  | m :: rest => max (depthMember m) (depthMembers rest)

def depthMember : String × Json → Nat
  | (_, v) => v.depth

end

/-- A reader from here may enter that many containers, one inside the other. -/
def Origin.Admits : Origin → Nat → Prop
  | tree, _ => True
  | text left, depth => depth ≤ left

namespace Origin

theorem Admits.of_le {o : Origin} {m n : Nat} (admits : o.Admits n) (le : m ≤ n) :
    o.Admits m := by
  cases o with
  | tree => trivial
  | text left => exact Nat.le_trans le admits

theorem admits_scalar (o : Origin) : o.Admits 0 := by
  cases o with
  | tree => trivial
  | text left => exact Nat.zero_le left

theorem Admits.enter {o : Origin} {n : Nat} (admits : o.Admits (n + 1)) :
    ∃ inside, o.enter = .ok inside ∧ inside.Admits n := by
  cases o with
  | tree => exact ⟨.tree, rfl, trivial⟩
  | text left =>
      cases left with
      | zero => cases admits
      | succ left => exact ⟨.text left, rfl, Nat.le_of_succ_le_succ admits⟩

end Origin

/-! ## Reading -/

mutual

/-- **The draft of a value reads as the value**, where it is not too deep. -/
theorem read_ofJson : ∀ (v : Json) (o : Origin), v.All Ordered → o.Admits v.depth →
    (Draft.ofJson v).read o = .ok v
  | null, _, _, _ | bool _, _, _, _ | int _, _, _, _ | float _, _, _, _ | string _, _, _, _ => by
      simp only [Draft.ofJson, Draft.read]
      rfl
  | array items, o, ordered, admits => by
      obtain ⟨inside, entered, admits⟩ := Origin.Admits.enter admits
      have found := readItems_ofList items inside ordered.2 admits
      simp only [Draft.ofJson, Draft.read, entered, found, bind, Except.bind]
      rfl
  | object members, o, ordered, admits => by
      obtain ⟨inside, entered, admits⟩ := Origin.Admits.enter admits
      have found := readMembers_ofList members inside ordered.2 admits
      simp only [Draft.ofJson, Draft.read, entered, found, bind, Except.bind,
        ofMembers_of_ordered ordered.1]
      rfl

theorem readItems_ofList : ∀ (items : List Json) (o : Origin), AllItems Ordered items →
    o.Admits (depthItems items) → (Items.ofList items).read o = .ok items
  | [], _, _, _ => by
      simp only [Items.ofList, Items.read]
  | v :: items, o, ordered, admits => by
      have first := read_ofJson v o ordered.1 (admits.of_le (Nat.le_max_left _ _))
      have others := readItems_ofList items o ordered.2 (admits.of_le (Nat.le_max_right _ _))
      simp only [Items.ofList, Items.read, first, others, bind, Except.bind]
      rfl

theorem readMembers_ofList : ∀ (members : List (String × Json)) (o : Origin),
    AllMembers Ordered members → o.Admits (depthMembers members) →
      (Members.ofList members).read o = .ok members
  | [], _, _, _ => by
      simp only [Members.ofList, Members.read]
  | (key, v) :: members, o, ordered, admits => by
      have first := read_ofJson v o ordered.1 (admits.of_le (Nat.le_max_left _ _))
      have others := readMembers_ofList members o ordered.2 (admits.of_le (Nat.le_max_right _ _))
      simp only [Members.ofList, Members.ofMember, Members.read, first, others, bind,
        Except.bind, Break.guard]
      rfl

end

end OneShot.Json
