/-
# OneShot.Proofs.Race.Grounds -- the ground that threads stand on

What is read back from a memory after one of its cells was changed, and the invariant that all
others stand on (`Machine.Grounded`).

* Points, registry and past speak of handles that exist.
* A thread that has loaded the registry with the stamp that is still there has loaded the
  registry that is still there, and it is open (`Memory.Bears`).  This is why an exchange on the
  stamp is an exchange on the registry.
-/
import OneShot.Proofs.Race.Moves

namespace OneShot.Race

set_option autoImplicit false

variable {α ε : Type}

theorem handles_live (waiting : List HandleRef) :
    (Registry.live (α := α) (ε := ε) waiting).handles = waiting := rfl

theorem handles_frozen (o : Outcome α ε) : (Registry.frozen o).handles = [] := rfl

/-! ## Cells -/

namespace Memory

section Cells

variable (m : Memory α ε) (h g : HandleRef)

theorem modify_handles (f : Handle α ε → Handle α ε) :
    (m.modify h f).handles[g]? = if g = h then m.handles[g]?.map f else m.handles[g]? := by
  simp only [modify, List.getElem?_modify]
  by_cases same : h = g
  · subst same
    simp
  · have other : ¬ g = h := fun eq => same eq.symm
    cases m.handles[g]? <;> simp [same, other]

theorem make_handles (c : Consumer) :
    (m.make c).handles[g]? =
      if g = m.handles.length then
        some { id := ⟨m.nextId⟩, consumer := c, phase := .idle, parked := none, keepAlive := false }
      else m.handles[g]? := by
  simp only [make]
  rcases Nat.lt_trichotomy g m.handles.length with inside | last | beyond
  · rw [List.getElem?_append_left inside, if_neg (Nat.ne_of_lt inside)]
  · subst last
    simp
  · rw [List.getElem?_eq_none (by simp; omega), List.getElem?_eq_none (by omega),
      if_neg (Nat.ne_of_gt beyond)]

@[simp] theorem setPhase_length (p : Phase) :
    (m.setPhase h p).handles.length = m.handles.length := by
  simp [setPhase, modify]

@[simp] theorem setParked_length (o : Option (Outcome α ε)) :
    (m.setParked h o).handles.length = m.handles.length := by
  simp [setParked, modify]

@[simp] theorem setKeepAlive_length (b : Bool) :
    (m.setKeepAlive h b).handles.length = m.handles.length := by
  simp [setKeepAlive, modify]

@[simp] theorem make_length (c : Consumer) :
    (m.make c).handles.length = m.handles.length + 1 := by
  simp [make]

/-! The cells of handles, the registry and the flag are changed apart from each other. -/

@[simp] theorem replace_handles (r : Registry α ε) :
    (m.replace r).handles = m.handles ∧ (m.replace r).flag = m.flag := ⟨rfl, rfl⟩

@[simp] theorem replace_registry (r : Registry α ε) :
    (m.replace r).registry = r ∧ (m.replace r).stamp = m.stamp + 1 := ⟨rfl, rfl⟩

@[simp] theorem setPhase_sink (p : Phase) :
    (m.setPhase h p).flag = m.flag ∧ (m.setPhase h p).registry = m.registry ∧
      (m.setPhase h p).stamp = m.stamp := ⟨rfl, rfl, rfl⟩

@[simp] theorem setParked_sink (o : Option (Outcome α ε)) :
    (m.setParked h o).flag = m.flag ∧ (m.setParked h o).registry = m.registry ∧
      (m.setParked h o).stamp = m.stamp := ⟨rfl, rfl, rfl⟩

@[simp] theorem setKeepAlive_sink (b : Bool) :
    (m.setKeepAlive h b).flag = m.flag ∧ (m.setKeepAlive h b).registry = m.registry ∧
      (m.setKeepAlive h b).stamp = m.stamp := ⟨rfl, rfl, rfl⟩

@[simp] theorem make_sink (c : Consumer) :
    (m.make c).flag = m.flag ∧ (m.make c).registry = m.registry ∧
      (m.make c).stamp = m.stamp := ⟨rfl, rfl, rfl⟩

/-! What is set in one cell is read from it, and from no other. -/

variable {m h} (inside : h < m.handles.length)

section Set

include inside

theorem phase_setPhase (p : Phase) :
    (m.setPhase h p).phase g = if g = h then p else m.phase g := by
  by_cases same : g = h
  · subst same
    simp [setPhase, phase, modify_handles, List.getElem?_eq_getElem inside]
  · simp [setPhase, phase, modify_handles, same]

theorem parked_setParked (o : Option (Outcome α ε)) :
    (m.setParked h o).parked g = if g = h then o else m.parked g := by
  by_cases same : g = h
  · subst same
    simp [setParked, parked, modify_handles, List.getElem?_eq_getElem inside]
  · simp [setParked, parked, modify_handles, same]

theorem keepsAlive_setKeepAlive (b : Bool) :
    (m.setKeepAlive h b).keepsAlive g = if g = h then b else m.keepsAlive g := by
  by_cases same : g = h
  · subst same
    simp [setKeepAlive, keepsAlive, modify_handles, List.getElem?_eq_getElem inside]
  · simp [setKeepAlive, keepsAlive, modify_handles, same]

end Set

omit inside

/-- A change that keeps what is read from a handle is not seen. -/
theorem read_modify {β : Type} (f : Handle α ε → Handle α ε) (read : Option (Handle α ε) → β)
    (keep : ∀ x, read (some (f x)) = read (some x)) :
    read (m.modify h f).handles[g]? = read m.handles[g]? := by
  rw [modify_handles]
  by_cases same : g = h
  · rw [if_pos same]
    cases m.handles[g]? with
    | none => rfl
    | some x => exact keep x
  · rw [if_neg same]

@[simp] theorem phase_setParked (o : Option (Outcome α ε)) :
    (m.setParked h o).phase g = m.phase g :=
  read_modify g _ (fun x => (x.map Handle.phase).getD .cancelled) fun _ => rfl

@[simp] theorem phase_setKeepAlive (b : Bool) : (m.setKeepAlive h b).phase g = m.phase g :=
  read_modify g _ (fun x => (x.map Handle.phase).getD .cancelled) fun _ => rfl

@[simp] theorem parked_setPhase (p : Phase) : (m.setPhase h p).parked g = m.parked g :=
  read_modify g _ (fun x => x.bind Handle.parked) fun _ => rfl

@[simp] theorem parked_setKeepAlive (b : Bool) : (m.setKeepAlive h b).parked g = m.parked g :=
  read_modify g _ (fun x => x.bind Handle.parked) fun _ => rfl

@[simp] theorem keepsAlive_setPhase (p : Phase) :
    (m.setPhase h p).keepsAlive g = m.keepsAlive g :=
  read_modify g _ (fun x => x.any Handle.keepAlive) fun _ => rfl

@[simp] theorem keepsAlive_setParked (o : Option (Outcome α ε)) :
    (m.setParked h o).keepsAlive g = m.keepsAlive g :=
  read_modify g _ (fun x => x.any Handle.keepAlive) fun _ => rfl

theorem phase_make (c : Consumer) :
    (m.make c).phase g = if g = m.handles.length then .idle else m.phase g := by
  rw [phase, make_handles]
  split <;> rfl

theorem parked_make (c : Consumer) : (m.make c).parked g = m.parked g := by
  rw [parked, make_handles]
  split
  · rename_i new
    subst new
    simp [parked]
  · rfl

theorem keepsAlive_make (c : Consumer) : (m.make c).keepsAlive g = m.keepsAlive g := by
  rw [keepsAlive, make_handles]
  split
  · rename_i new
    subst new
    simp [keepsAlive]
  · rfl

end Cells

end Memory

/-! ## Grounds -/

/-- The handle that an event tells of. -/
def Event.handle? : Event α ε → Option HandleRef
  | subscribed h | requested h _ | cancelled h | registered h | removed h | offered h _ _
  | began h _ | ended h _ => some h
  | claimed _ _ | answered _ => none

section Passages

variable {m m' : Memory α ε} {p : Point α ε} {new : List (Point α ε)} {events : List (Event α ε)}

namespace Passage

theorem length (passage : Passage m p m' new events) : m.handles.length ≤ m'.handles.length := by
  cases passage <;> simp

/-- A point speaks of its own handles, of those of the registry, and of one it has made. -/
theorem grounds (passage : Passage m p m' new events)
    (own : ∀ h ∈ p.holds, h < m.handles.length)
    (waiting : ∀ h ∈ m.registry.handles, h < m.handles.length) :
    (∀ q ∈ new, ∀ h ∈ q.holds, h < m'.handles.length) ∧
      (∀ h ∈ m'.registry.handles, h < m'.handles.length) ∧
      ∀ event ∈ events, ∀ h, event.handle? = some h → h < m'.handles.length := by
  cases passage with
  | make c =>
      refine ⟨by simp [Point.holds], ?_, by simp [Event.handle?]⟩
      intro h member
      have inside := waiting h member
      rw [Memory.make_length]
      exact Nat.lt_succ_of_lt inside
  | start h signal acts =>
      refine ⟨?_, waiting, by simpa [Point.holds, Event.handle?] using own⟩
      exact forall_callback (fun _ => own) own
  | add h others =>
      refine ⟨by simpa [Point.holds] using own h (by simp [Point.holds]), ?_,
        by simpa [Point.holds, Event.handle?] using own h (by simp [Point.holds])⟩
      intro g member
      simp only [Memory.replace_registry, handles_live] at member
      apply own
      simpa [Point.holds, or_comm] using member
  | remove h others =>
      refine ⟨by simp, ?_, by simpa [Event.handle?] using own h (by simp [Point.holds])⟩
      intro g member
      simp only [Memory.replace_registry, handles_live] at member
      exact own g (List.mem_cons_of_mem _ (List.mem_of_mem_erase member))
  | freeze o =>
      refine ⟨?_, by simp [handles_frozen], by simp⟩
      apply forall_loop
      · simpa [Point.holds] using waiting
      · exact waiting
      · simp [Point.holds]
  | _ => simp_all [Point.holds, Event.handle?, handles_live, handles_frozen]

/-- The registry changes with its stamp, and only then. -/
theorem stamps (passage : Passage m p m' new events) :
    (m'.stamp = m.stamp ∧ m'.registry = m.registry) ∨ m'.stamp = m.stamp + 1 := by
  cases passage <;> simp

end Passage

end Passages

/-! ## Stamps -/

/-- What a point has loaded of the registry: the stamp, and who waited. -/
def Point.loaded? : Point α ε → Option (Nat × List HandleRef)
  | addSwap _ stamp waiting | removeSwap _ stamp waiting => some (stamp, waiting)
  | _ => none

/-- The handle that a point takes out of what it has loaded. -/
def Point.removes? : Point α ε → Option HandleRef
  | removeSwap h _ _ => some h
  | _ => none

/-- What was loaded is still there as long as its stamp is. -/
def Memory.Bears (m : Memory α ε) (p : Point α ε) : Prop :=
  ∀ stamp waiting, p.loaded? = some (stamp, waiting) →
    stamp ≤ m.stamp ∧ (m.stamp = stamp → m.registry = .live waiting) ∧
      ∀ h, p.removes? = some h → h ∈ waiting

section Passages

variable {m m' : Memory α ε} {p : Point α ε} {new : List (Point α ε)} {events : List (Event α ε)}

namespace Passage

/-- What another thread has loaded before is still borne out, or outdated. -/
theorem bears (passage : Passage m p m' new events) {q : Point α ε} (old : m.Bears q) :
    m'.Bears q := by
  intro stamp waiting loaded
  obtain ⟨early, borne, removed⟩ := old stamp waiting loaded
  rcases passage.stamps with ⟨still, registry⟩ | later
  · rw [still, registry]
    exact ⟨early, borne, removed⟩
  · exact ⟨by omega, by omega, removed⟩

theorem bears_new (passage : Passage m p m' new events) : ∀ q ∈ new, m'.Bears q := by
  have mute : ∀ {q : Point α ε}, q.loaded? = none → m'.Bears q := by
    intro q none_ stamp waiting loaded
    rw [none_] at loaded
    cases loaded
  cases passage with
  | addLoad h open_ =>
      intro q next stamp waiting loaded
      obtain rfl := List.mem_singleton.1 next
      cases loaded
      exact ⟨Nat.le_refl _, fun _ => open_, by simp [Point.removes?]⟩
  | removeLoad h open_ waits =>
      intro q next stamp waiting loaded
      obtain rfl := List.mem_singleton.1 next
      cases loaded
      refine ⟨Nat.le_refl _, fun _ => open_, ?_⟩
      intro g removes
      cases removes
      exact waits
  | start h signal acts => exact forall_callback (fun _ => mute rfl) (mute rfl)
  | freeze o => exact forall_loop (fun _ _ => mute rfl) (mute rfl) (mute rfl)
  | _ =>
      intro q next
      apply mute
      revert q
      simp [Point.loaded?]

end Passage

end Passages

/-! ## Every run -/

/-- Points, registry and past speak of handles that exist, and what threads have loaded of the
registry is borne out. -/
structure Machine.Grounded (m : Machine α ε) : Prop where
  points : ∀ p ∈ m.pending, ∀ h ∈ p.holds, h < m.memory.handles.length
  waiting : ∀ h ∈ m.memory.registry.handles, h < m.memory.handles.length
  past : ∀ event ∈ m.past, ∀ h, event.handle? = some h → h < m.memory.handles.length
  stamped : ∀ p ∈ m.pending, m.memory.Bears p

namespace Machine.Grounded

variable {m m' : Machine α ε}

theorem owned (grounded : m.Grounded) {h : HandleRef} (owned : m.owned h = true) :
    h < m.memory.handles.length := by
  simp only [Machine.owned, Bool.or_eq_true, List.contains_iff_mem, List.any_eq_true] at owned
  rcases owned with (waits | keeps) | ⟨t, thread, p, work, holds⟩
  · exact grounded.waiting h waits
  · simp only [Memory.keepsAlive, Option.any_eq_true] at keeps
    obtain ⟨x, found, -⟩ := keeps
    exact (List.getElem?_eq_some_iff.1 found).1
  · exact grounded.points p (List.mem_flatMap.2 ⟨t, thread, work⟩) h holds

theorem moves (grounded : m.Grounded) (moves : m.Moves m') : m'.Grounded := by
  cases moves with
  | @passes p _ new events passage memory trades calls =>
      subst memory
      have member : p ∈ m.pending := trades.of_old (List.mem_singleton_self p)
      obtain ⟨points, waiting, past⟩ := passage.grounds (grounded.points p member) grounded.waiting
      have grown := passage.length
      refine ⟨?_, waiting, ?_, ?_⟩
      · intro q next h holds
        rcases trades.of_pending next with new | old
        · exact points q new h holds
        · exact Nat.lt_of_lt_of_le (grounded.points q old h holds) grown
      · intro event said h tells
        rcases trades.mem_past.1 said with new | old
        · exact past event new h tells
        · exact Nat.lt_of_lt_of_le (grounded.past event old h tells) grown
      · intro q next
        rcases trades.of_pending next with new | old
        · exact passage.bears_new q new
        · exact passage.bears (grounded.stamped q old)
  | @enters call new events entry memory trades calls =>
      have points : ∀ q ∈ new, ∀ h ∈ q.holds, h < m.memory.handles.length := by
        cases entry with
        | requestNothing owned | request owned | cancel owned =>
            simpa [Point.holds] using grounded.owned owned
        | _ => simp [Point.holds]
      have past : ∀ event ∈ events, ∀ h, event.handle? = some h → h < m.memory.handles.length := by
        cases entry with
        | requestNothing owned | request owned => simpa [Event.handle?] using grounded.owned owned
        | _ => simp
      have unloaded : ∀ q ∈ new, q.loaded? = none := by
        cases entry <;> simp [Point.loaded?]
      refine ⟨?_, ?_, ?_, ?_⟩
      · intro q next h holds
        rw [memory]
        rcases trades.of_pending next with new | old
        · exact points q new h holds
        · exact grounded.points q old h holds
      · rw [memory]
        exact grounded.waiting
      · intro event said h tells
        rw [memory]
        rcases trades.mem_past.1 said with new | old
        · exact past event new h tells
        · exact grounded.past event old h tells
      · intro q next
        rw [memory]
        rcases trades.of_pending next with new | old
        · intro stamp waiting loaded
          rw [unloaded q new] at loaded
          cases loaded
        · exact grounded.stamped q old

theorem start (programs : List (List (Call α ε))) :
    (Machine.start .fresh programs).Grounded := by
  refine ⟨by simp, ?_, ?_, by simp⟩
  · simp [Machine.start, Memory.fresh, handles_live]
  · simp [Machine.start]

end Machine.Grounded

theorem Machine.Reached.grounded {programs : List (List (Call α ε))} {m : Machine α ε}
    (reached : m.Reached programs) : m.Grounded :=
  reached.keep (.start programs) fun _ _ _ moves grounded => grounded.moves moves

end OneShot.Race
